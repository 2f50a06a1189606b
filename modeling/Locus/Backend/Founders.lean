import Locus.Backend.CommunityService

/-!
# Founders that abandon their members

`Leave` refuses a founder with other members by `community.MemberCount > 1`. `Create` sets the count to 1
and no call of the service changes it, so the guard never fires (`founder_stays_iff`). A founder may also
reject himself, and approves others behind that, since the check of `ApproveMember` looks at the role only.
These are all the ways in which a community with active members comes to be without its founder.

Proof. Only the founder has a role other than `member`, and only a community that is stored has members that
have been approved (`Store.Kept`), so the calls behind the check are the founder's.
-/

namespace Locus.Backend

open Lib

variable {ID σ X : Type}

namespace Store

/-- A community with an active member has its owner as an active member. -/
def FounderStays (v : Store ID) : Prop :=
  ∀ c community u, v.community c = some community → u ≠ community.ownerID → v.Has .active u c →
    v.Has .active community.ownerID c

/-- Somebody else than `ownerID` is an active member. -/
def OthersActive (v : Store ID) (ownerID c : ID) : Prop := ∃ u, u ≠ ownerID ∧ v.Has .active u c

/-- What holds in every run: only owners are more than members, a membership that is settled is one of a
community, and a community has one member by its count. -/
structure Kept (v : Store ID) : Prop where
  founder : ∀ u c m, v.membership u c = some m → m.role ≠ .member →
    m.role = .founder ∧ ∃ community, v.community c = some community ∧ community.ownerID = u
  settled : ∀ u c m, v.membership u c = some m → m.status ≠ .pending → ∃ community, v.community c = some community
  count : ∀ c community, v.community c = some community → community.memberCount = 1

theorem Kept.owner {v : Store ID} (h : v.Kept) {u c : ID} (hu : v.Verified u c) :
    ∃ community, v.community c = some community ∧ community.ownerID = u := by
  obtain ⟨m, hm, hrole⟩ := hu
  refine (h.founder u c m hm ?_).2
  rcases hrole with hrole | hrole <;> simp [hrole]

end Store

/-- The founder stays behind the call as long as others are active: he does not leave or reject himself, and
a founder who is not active approves nobody else. -/
def KeepsFounder (svc : CommunityService ID σ X) (v : Store ID) : ServiceCall ID X → Prop
  | .create .. | .apply .. => True
  | .approveMember communityID adminID targetUserID _ _ =>
    ∀ community, v.community (svc.uid communityID) = some community → v.Verified adminID (svc.uid communityID) →
      targetUserID ≠ community.ownerID → (v.membership targetUserID (svc.uid communityID)).isSome →
      v.Has .active community.ownerID (svc.uid communityID)
  | .rejectMember communityID adminID targetUserID _ _ =>
    ∀ community, v.community (svc.uid communityID) = some community → v.Verified adminID (svc.uid communityID) →
      targetUserID = community.ownerID → ¬ v.OthersActive community.ownerID (svc.uid communityID)
  | .leave communityID userID _ _ =>
    ∀ community, v.community (svc.uid communityID) = some community →
      userID = community.ownerID → ¬ v.OthersActive community.ownerID (svc.uid communityID)

section
variable [DecidableEq ID] {svc : CommunityService ID σ X} {v v' : Store ID} {call : ServiceCall ID X}

theorem Store.Kept.setStatus (h : v.Kept) {adminID targetUserID uid : ID} (hadmin : v.Verified adminID uid)
    (status : MemberStatus) : (v.setStatus targetUserID uid status).Kept := by
  refine ⟨fun u c m hm hrole => ?_, fun u c m hm hstatus => ?_, h.count⟩
  · obtain ⟨m₀, hm₀, hsame, -⟩ := v.setStatus_cases _ _ _ _ _ hm
    rw [hsame] at hrole ⊢
    exact h.founder u c m₀ hm₀ hrole
  · obtain ⟨m₀, hm₀, -, ⟨-, rfl, -⟩ | ⟨-, rfl⟩⟩ := v.setStatus_cases _ _ _ _ _ hm
    · obtain ⟨community, hcommunity, -⟩ := h.owner hadmin
      exact ⟨community, hcommunity⟩
    · exact h.settled u c m hm₀ hstatus

theorem Store.Kept.addCommunity (h : v.Kept) {id : ID} (hid : v.community id = none)
    {community : Community ID} (hcount : community.memberCount = 1) : (v.addCommunity id community).Kept := by
  have hstored : ∀ {c found}, v.community c = some found →
      (v.addCommunity id community).community c = some found := by
    intro c found hfound
    have hne : c ≠ id := by
      rintro rfl
      simp [hid] at hfound
    simpa [Store.addCommunity, hne] using hfound
  refine ⟨fun u c m hm hrole => ?_, fun u c m hm hstatus => ?_, fun c found hfound => ?_⟩
  · obtain ⟨hrole', found, hfound, howner⟩ := h.founder u c m hm hrole
    exact ⟨hrole', found, hstored hfound, howner⟩
  · obtain ⟨found, hfound⟩ := h.settled u c m hm hstatus
    exact ⟨found, hstored hfound⟩
  · rcases v.addCommunity_cases _ _ hfound with ⟨-, rfl⟩ | ⟨-, hfound⟩
    · exact hcount
    · exact h.count c found hfound

theorem Store.Kept.step (h : v.Kept) (he : Effect svc v call v') : v'.Kept := by
  cases he with
  | none => exact h
  | founds ownerID input x y id hid => exact h.addCommunity hid rfl
  | foundsWithFounder ownerID input x y id hid hnew =>
    have hadd : (v.addCommunity id (CommunityService.newCommunity ownerID input)).Kept := h.addCommunity hid rfl
    have hfound : (v.addCommunity id (CommunityService.newCommunity ownerID input)).community id =
        some (CommunityService.newCommunity ownerID input) := by simp [Store.addCommunity]
    refine ⟨fun u c m hm hrole => ?_, fun u c m hm hstatus => ?_, hadd.count⟩
    · rcases Store.addMembership_cases _ _ _ hm with ⟨rfl, rfl, rfl⟩ | ⟨-, hm⟩
      · exact ⟨rfl, _, hfound, rfl⟩
      · exact hadd.founder u c m hm hrole
    · rcases Store.addMembership_cases _ _ _ hm with ⟨-, rfl, -⟩ | ⟨-, hm⟩
      · exact ⟨_, hfound⟩
      · exact hadd.settled u c m hm hstatus
  | applies communityID userID propertyID message x y m₀ hm₀ hnew =>
    refine ⟨fun u c m hm hrole => ?_, fun u c m hm hstatus => ?_, h.count⟩
    · rcases Store.addMembership_cases _ _ _ hm with ⟨-, -, rfl⟩ | ⟨-, hm⟩
      · exact absurd hm₀.2.2.1 hrole
      · exact h.founder u c m hm hrole
    · rcases Store.addMembership_cases _ _ _ hm with ⟨-, -, rfl⟩ | ⟨-, hm⟩
      · exact absurd hm₀.2.2.2 hstatus
      · exact h.settled u c m hm hstatus
  | approves communityID adminID targetUserID x y hadmin => exact h.setStatus hadmin _
  | rejects communityID adminID targetUserID x y hadmin => exact h.setStatus hadmin _
  | leaves communityID userID x y community hcommunity hguard =>
    refine ⟨fun u c m hm hrole => ?_, fun u c m hm hstatus => ?_, h.count⟩
    · exact h.founder u c m (Store.removeMembership_cases _ _ _ _ _ hm).2 hrole
    · exact h.settled u c m (Store.removeMembership_cases _ _ _ _ _ hm).2 hstatus

theorem Store.FounderStays.addCommunity (hk : v.Kept) (h : v.FounderStays) {id : ID}
    (hid : v.community id = none) (community : Community ID) : (v.addCommunity id community).FounderStays := by
  rintro c found u hfound hne ⟨m, hm, hactive⟩
  rcases v.addCommunity_cases _ _ hfound with ⟨rfl, rfl⟩ | ⟨-, hfound⟩
  · obtain ⟨stored, hstored⟩ := hk.settled u c m hm (by simp [hactive])
    simp [hid] at hstored
  · exact h c found u hfound hne ⟨m, hm, hactive⟩

theorem Store.FounderStays.addMembership (h : v.FounderStays) {m : Membership ID}
    (hnew : v.membership m.userID m.communityID = none)
    (hm : m.status = .active → ∀ community, v.community m.communityID = some community →
      m.userID = community.ownerID) : (v.addMembership m).FounderStays := by
  intro c community u hcommunity hne hactive
  have hothers : v.Has .active u c := by
    rw [Store.has_addMembership] at hactive
    split at hactive
    · rename_i hkey
      rw [hkey.2] at hcommunity
      exact absurd (hkey.1.trans (hm hactive community hcommunity)) hne
    · exact hactive
  have howner := h c community u hcommunity hne hothers
  rw [Store.has_addMembership, if_neg]
  · exact howner
  · rintro ⟨hu, hc⟩
    obtain ⟨found, hfound, -⟩ := howner
    simp [hu, hc, hnew] at hfound

section
variable {targetUserID uid : ID}

theorem Store.FounderStays.approve (h : v.FounderStays)
    (hC : ∀ community, v.community uid = some community → targetUserID ≠ community.ownerID →
      (v.membership targetUserID uid).isSome → v.Has .active community.ownerID uid) :
    (v.setStatus targetUserID uid .active).FounderStays := by
  intro c community u hcommunity hne hactive
  rw [Store.has_setStatus] at hactive ⊢
  by_cases htarget : u = targetUserID ∧ c = uid
  · rw [if_pos htarget] at hactive
    obtain ⟨rfl, rfl⟩ := htarget
    rw [if_neg fun hkey => hne hkey.1.symm]
    exact hC community hcommunity hne hactive.2
  · rw [if_neg htarget] at hactive
    have howner := h c community u hcommunity hne hactive
    split
    · obtain ⟨m, hm, -⟩ := howner
      simp [hm]
    · exact howner

theorem Store.FounderStays.reject (h : v.FounderStays)
    (hC : ∀ community, v.community uid = some community → targetUserID = community.ownerID →
      ¬ v.OthersActive community.ownerID uid) : (v.setStatus targetUserID uid .rejected).FounderStays := by
  intro c community u hcommunity hne hactive
  rw [Store.has_setStatus] at hactive ⊢
  have hothers : v.Has .active u c := by
    split at hactive
    · cases hactive.1
    · exact hactive
  rw [if_neg]
  · exact h c community u hcommunity hne hothers
  · rintro ⟨howner, rfl⟩
    exact hC community hcommunity howner.symm ⟨u, hne, hothers⟩

theorem Store.FounderStays.remove (h : v.FounderStays)
    (hC : ∀ community, v.community uid = some community → targetUserID = community.ownerID →
      ¬ v.OthersActive community.ownerID uid) : (v.removeMembership targetUserID uid).FounderStays := by
  intro c community u hcommunity hne hactive
  rw [Store.has_removeMembership] at hactive ⊢
  refine ⟨?_, h c community u hcommunity hne hactive.2⟩
  rintro ⟨howner, rfl⟩
  exact hC community hcommunity howner.symm ⟨u, hne, hactive.2⟩

end

theorem founderStays_step (hk : v.Kept) (h : v.FounderStays) (hC : KeepsFounder svc v call)
    (he : Effect svc v call v') : v'.FounderStays := by
  cases he with
  | none => exact h
  | founds ownerID input x y id hid => exact h.addCommunity hk hid _
  | foundsWithFounder ownerID input x y id hid hnew =>
    refine (h.addCommunity hk hid _).addMembership hnew fun _ community hcommunity => ?_
    rcases v.addCommunity_cases _ _ hcommunity with ⟨-, rfl⟩ | ⟨hne, -⟩
    · rfl
    · exact absurd rfl hne
  | applies communityID userID propertyID message x y m hm hnew =>
    obtain ⟨rfl, hc, -, hstatus⟩ := hm
    refine h.addMembership (by rw [hc]; exact hnew) fun hactive => ?_
    rw [hstatus] at hactive
    cases hactive
  | approves communityID adminID targetUserID x y hadmin =>
    exact h.approve fun community hcommunity => hC community hcommunity hadmin
  | rejects communityID adminID targetUserID x y hadmin =>
    exact h.reject fun community hcommunity => hC community hcommunity hadmin
  | leaves communityID userID x y community hcommunity hguard => exact h.remove hC

end

/-! ### Over a run -/

section
variable [DecidableEq ID] {svc : CommunityService ID σ X} {store : σ → Store ID} {works : X} {s s' : σ}

theorem kept_of_reachable (h : svc.Lawful store works) {C : σ → ServiceCall ID X → Prop}
    (hs : (communityService svc store).Reachable C s) : (store s).Kept := by
  refine hs.invariant (fun s => (store s).Kept) (fun s hinit => ?_) fun s call s' hk _ hstep =>
    hk.step (effect_of_step h hstep)
  have hempty : store s = {} := hinit
  rw [hempty]
  exact ⟨fun _ _ _ hm => (by cases hm), fun _ _ _ hm => (by cases hm), fun _ _ hc => (by cases hc)⟩

theorem founderStays_of_reachable (h : svc.Lawful store works)
    (hs : (communityService svc store).Reachable (fun s call => KeepsFounder svc (store s) call) s) :
    (store s).FounderStays := by
  have hinv : (store s).Kept ∧ (store s).FounderStays := by
    refine hs.invariant (fun s => (store s).Kept ∧ (store s).FounderStays) (fun s hinit => ?_)
      fun s call s' hi hC hstep => ?_
    · refine ⟨kept_of_reachable h (C := System.Any) ⟨s, [], hinit, .nil⟩, ?_⟩
      have hempty : store s = {} := hinit
      rw [hempty]
      intro c community u hcommunity
      cases hcommunity
    · have heffect := effect_of_step h hstep
      exact ⟨hi.1.step heffect, founderStays_step hi.1 hi.2 hC heffect⟩
  exact hinv.2

theorem leave_works (h : svc.Lawful store works) (hk : (store s).Kept) {communityID : String} (userID : ID)
    {community : Community ID} (hcommunity : (store s).community (svc.uid communityID) = some community) :
    (svc.leave communityID userID works works s).1 = .ok () ∧
      store (svc.leave communityID userID works works s).2 =
        (store s).removeMembership userID (svc.uid communityID) := by
  have hguard : ¬ (community.ownerID = userID ∧ community.memberCount > 1) := by
    rw [hk.count _ community hcommunity]
    omega
  rw [CommunityService.leave, h.findByID_works s _ community hcommunity]
  dsimp only
  rw [if_neg hguard]
  exact h.delete_works s userID (svc.uid communityID)

theorem keepsFounder_of_stays (h : svc.Lawful store works) (hk : (store s).Kept) {call : ServiceCall ID X}
    (hworks : call.Works works) (hstep : (communityService svc store).step s call = some s')
    (hstays : (store s').FounderStays) : KeepsFounder svc (store s) call := by
  obtain rfl := Option.some.inj hstep
  cases call with
  | create | apply => trivial
  | approveMember communityID adminID targetUserID x y =>
    obtain ⟨rfl, rfl⟩ := hworks
    intro community hcommunity hadmin hne htarget
    have hset : store (svc.approveMember communityID adminID targetUserID y y s).2 = _ :=
      (setStatus_works h .active targetUserID hadmin).2
    change (store (svc.approveMember communityID adminID targetUserID y y s).2).FounderStays at hstays
    rw [hset] at hstays
    have howner := hstays (svc.uid communityID) community targetUserID hcommunity hne (by
      rw [Store.has_setStatus, if_pos ⟨rfl, rfl⟩]
      exact ⟨rfl, htarget⟩)
    rwa [Store.has_setStatus, if_neg fun hkey => hne hkey.1.symm] at howner
  | rejectMember communityID adminID targetUserID x y =>
    obtain ⟨rfl, rfl⟩ := hworks
    rintro community hcommunity hadmin rfl ⟨u, hne, hactive⟩
    have hset : store (svc.rejectMember communityID adminID community.ownerID y y s).2 = _ :=
      (setStatus_works h .rejected community.ownerID hadmin).2
    change (store (svc.rejectMember communityID adminID community.ownerID y y s).2).FounderStays at hstays
    rw [hset] at hstays
    have howner := hstays (svc.uid communityID) community u hcommunity hne (by
      rwa [Store.has_setStatus, if_neg fun hkey => hne hkey.1])
    rw [Store.has_setStatus, if_pos ⟨rfl, rfl⟩] at howner
    cases howner.1
  | leave communityID userID x y =>
    obtain ⟨rfl, rfl⟩ := hworks
    rintro community hcommunity rfl ⟨u, hne, hactive⟩
    have hleave := (leave_works h hk community.ownerID hcommunity).2
    change (store (svc.leave communityID community.ownerID y y s).2).FounderStays at hstays
    rw [hleave] at hstays
    have howner := hstays (svc.uid communityID) community u hcommunity hne (by
      rw [Store.has_removeMembership]
      exact ⟨fun hkey => hne hkey.1, hactive⟩)
    rw [Store.has_removeMembership] at howner
    exact howner.1 ⟨rfl, rfl⟩

/-- **When a founder stays**: in a run whose calls keep the founder, a community with an active member has its
owner as an active member; the first call that does not keep him, on repositories that work, ends that; and
`Leave` never refuses anybody, since no call counts the members. -/
theorem founder_stays_iff (h : svc.Lawful store works) :
    (∀ s, (communityService svc store).Reachable (fun s call => KeepsFounder svc (store s) call) s →
      (store s).FounderStays ∧ ∀ call s', call.Works works →
        (communityService svc store).step s call = some s' →
        ((store s').FounderStays ↔ KeepsFounder svc (store s) call)) ∧
    ∀ s, (communityService svc store).Reachable System.Any s → ∀ communityID userID,
      ((store s).community (svc.uid communityID)).isSome →
      (svc.leave communityID userID works works s).1 = .ok () := by
  refine ⟨fun s hs => ?_, fun s hs communityID userID hfound => ?_⟩
  · have hk := kept_of_reachable h hs
    have hstays := founderStays_of_reachable h hs
    refine ⟨hstays, fun call s' hworks hstep => ⟨?_, fun hC => ?_⟩⟩
    · exact keepsFounder_of_stays h hk hworks hstep
    · exact founderStays_step hk hstays hC (effect_of_step h hstep)
  · obtain ⟨community, hcommunity⟩ := Option.isSome_iff_exists.mp hfound
    exact (leave_works h (kept_of_reachable h hs) userID hcommunity).1

end

/-- The founder stays behind these calls, and does so behind the next one just if it keeps him. -/
theorem founder_stays_iff_bea : ∃ s : Store ℕ,
    (communityService inMemory id).Reachable (fun s call => KeepsFounder inMemory s call) s ∧
      s.Has .active 2 1 ∧ s.FounderStays ∧
      ((s.removeMembership 2 1).FounderStays ↔ KeepsFounder inMemory s (.leave "|" 2 0 0)) := by
  have happlied : KeepsFounder inMemory
      (inMemory.perform (inMemory.perform {} anaFounds) (.apply "|" 2 "|" "" 0 0)) (.approveMember "|" 1 2 0 0) := by
    intro community hcommunity _ _ _
    obtain rfl : CommunityService.newCommunity 1 _ = community := Option.some.inj hcommunity
    exact Store.has_of_map (by decide +kernel)
  have hreach : (communityService inMemory id).Reachable (fun s call => KeepsFounder inMemory s call) _ :=
    ⟨{}, beaJoins, rfl, ((System.Run.nil.snoc trivial rfl).snoc trivial rfl).snoc happlied rfl⟩
  obtain ⟨hstays, hnext⟩ := (founder_stays_iff inMemory_lawful).1 _ hreach
  exact ⟨_, hreach, Store.has_of_map (by decide +kernel), hstays, hnext (.leave "|" 2 0 0) _ ⟨rfl, rfl⟩ rfl⟩

/-- **Ana leaves Bea alone**: the guard of `Leave` does not fire. -/
theorem ana_leaves_bea :
    ¬ ∀ s : Store ℕ, (communityService inMemory id).Reachable System.Any s → s.FounderStays := by
  intro hclaim
  obtain ⟨s, hs, hleft⟩ := System.reachable_of_exec (communityService inMemory id) (fun _ _ => true)
    (fun s : Store ℕ => ((s.community 1).map (·.ownerID), (s.membership 2 1).map (·.status), s.membership 1 1))
    (beaJoins ++ [.leave "|" 1 0 0]) (s := {}) (a := (some 1, some .active, none)) rfl (by decide +kernel)
  simp only [Prod.mk.injEq, Option.map_eq_some_iff] at hleft
  obtain ⟨⟨community, hcommunity, howner⟩, ⟨m, hm, hactive⟩, hnone⟩ := hleft
  obtain ⟨m', hm', -⟩ := hclaim s (hs.mono fun _ _ _ => trivial) 1 community 2 hcommunity (by simp [howner])
    ⟨m, hm, hactive⟩
  simp [howner, hnone] at hm'

end Locus.Backend
