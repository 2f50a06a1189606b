import Locus.Server.Api

/-!
# What the public routes show of the users

Two databases that differ only in personal columns of `users` are to be indistinguishable for those who send
no `Authorization` header. Every public GET route but one reads other tables only, so it answers the same on
both (`same_serve`). `GET /communities/:id/members` joins `users`, and shows the email and the name of every
member to everyone (`members_leak`). The responses are the same exactly if no such request is about a
community that has a member with another email or name (`responses_eq_iff`).
-/

namespace Locus.Server

open Lib

/-! ### The requests -/

/-- A GET request without an `Authorization` header. -/
def ApiRequest.isPublicGet : ApiRequest → Bool
  | getAuthMe none | getCommunities _ | getCommunitiesNearby _ | getCommunitiesId _ | getProperties _
  | getPropertiesMap _ | getCommunitiesVotes _ | getVotesResults .. | getCommunitiesMembers _
  | getPropertiesId _ | getNotifications none .. | getNotificationsUnreadCount none | getUsersMe none
  | getUsersRentals none | getUsersTransactions none | getRoot | getHealth | getDbCheck => true
  | _ => false

/-- Such a request with what its handler takes from Node and PostgreSQL. -/
structure PublicGet where
  request : ApiRequest
  isPublic : request.isPublicGet = true
  env : NodeEnv
  tick : ℕ → Tick

def responses (svc : Services) (s : ServerState) : List PublicGet → List Response
  | [] => []
  | g :: gets => (serve svc s g.request g.env g.tick).1 ::
      responses svc (serve svc s g.request g.env g.tick).2 gets

/-! ### Two databases -/

/-- The columns of `users` that are not personal. -/
def publicColumns (row : UserRow) : Uuid × Option String × Time × Time :=
  (row.id, row.avatarUrl, row.createdAt, row.updatedAt)

/-- The databases differ only in the columns email, name, phone, bio and password_hash of `users`. -/
structure SamePublic (db db' : Db) : Prop where
  users : db.users.map publicColumns = db'.users.map publicColumns
  rest : db' = { db with users := db'.users }

/-- Every user with a row in the community has the same email and the same name in both databases. -/
def MembersAgree (db db' : Db) (c : Uuid) : Prop :=
  ∀ m ∈ db.communityMembers, m.communityId = c → ∀ u ∈ db.users.zip db'.users, u.1.id = m.userId →
    u.1.email = u.2.email ∧ u.1.name = u.2.name

/-- The statement reads no table but others than `users`. -/
def Stmt.readsNoUser : Stmt → Bool
  | .selectCommunity _ | .countCommunities | .selectCommunities .. | .countCommunitiesNearby ..
  | .selectCommunitiesNearby .. | .countProperties | .selectProperties .. | .countPropertiesNearby ..
  | .selectPropertiesNearby .. | .selectVotes _ | .selectVoteResults _ | .selectProperty _ | .selectNow => true
  | _ => false

theorem exec_readsNoUser (svc : Services) (tick : Tick) {db db' : Db} (h : SamePublic db db') {q : Stmt}
    (hq : q.readsNoUser = true) :
    (exec svc tick db q).1 = (exec svc tick db' q).1 ∧ (exec svc tick db q).2 = db ∧
      (exec svc tick db' q).2 = db' := by
  have hread : isWrite q = false := by cases q <;> first | rfl | cases hq
  refine ⟨?_, exec_read svc tick db hread, exec_read svc tick db' hread⟩
  -- the other tables are the same
  have hsame : (execOk svc tick db q).map (·.1) = (execOk svc tick db' q).map (·.1) := by
    rw [h.rest]
    cases q with
    | countCommunities | countProperties | selectNow => rfl
    | selectCommunity | selectCommunities | countCommunitiesNearby | selectCommunitiesNearby
    | selectProperties | countPropertiesNearby | selectPropertiesNearby | selectVotes | selectVoteResults
    | selectProperty => exact (map_pair_fst _ _).trans (map_pair_fst _ _).symm
    | _ => cases hq
  unfold exec
  cases tick.fault with
  | some message => rfl
  | none =>
    cases hok : execOk svc tick db q <;> cases hok' : execOk svc tick db' q <;>
      simp_all [Except.map, settleStmt]

/-! ### The routes that read no user -/

theorem isPublicGet_sends (svc : Services) (env : NodeEnv) {r : ApiRequest} (hr : r.isPublicGet = true)
    (hmembers : ∀ id, r ≠ .getCommunitiesMembers id) :
    (r.handler svc env).Sends fun q => q.readsNoUser = true := by
  cases r with
  | getCommunities q =>
    refine getCached_sends fun cached => ?_
    cases cached with
    | some page => trivial
    | none =>
      dsimp only
      split
      · exact catch500_sends rfl fun _ => catch500_sends rfl fun _ => setCache_sends _
      · exact catch500_sends rfl fun _ => catch500_sends rfl fun _ => setCache_sends _
  | getCommunitiesNearby q =>
    rw [ApiRequest.handler, Server.getCommunitiesNearby]
    split
    · trivial
    · exact catch500_sends rfl fun _ => trivial
  | getCommunitiesId id =>
    refine catch500_sends rfl fun rows => ?_
    cases rows <;> trivial
  | getProperties q =>
    rw [ApiRequest.handler, Server.getProperties]
    dsimp only
    split
    · exact catch500_sends rfl fun _ => catch500_sends rfl fun _ => trivial
    · exact catch500_sends rfl fun _ => catch500_sends rfl fun _ => trivial
  | getPropertiesMap q =>
    rw [ApiRequest.handler, Server.getPropertiesMap]
    split
    · trivial
    · exact catch500_sends rfl fun _ => trivial
  | getPropertiesId id =>
    refine catch500_sends rfl fun rows => ?_
    cases rows <;> trivial
  | getCommunitiesVotes id => exact catch500_sends rfl fun _ => trivial
  | getVotesResults id voteId => exact catch500_sends rfl fun _ => trivial
  | getDbCheck => exact Prog.tryCatch_sends rfl (fun _ => trivial) fun _ => trivial
  | getRoot | getHealth => trivial
  | getCommunitiesMembers id => exact absurd rfl (hmembers id)
  | getAuthMe authorization | getNotifications authorization | getNotificationsUnreadCount authorization
  | getUsersMe authorization | getUsersRentals authorization | getUsersTransactions authorization =>
    -- without a token the answer is 401
    cases authorization with
    | none => trivial
    | some token => cases hr
  | _ => cases hr

/-- The server on the two databases, with the same cache. -/
structure SameServer (s s' : ServerState) : Prop where
  db : SamePublic s.db s'.db
  cache : s.cache = s'.cache

/-- **A route that reads no user does not tell the databases apart.** -/
theorem same_serve (svc : Services) {s s' : ServerState} (h : SameServer s s') {r : ApiRequest}
    (hr : r.isPublicGet = true) (hmembers : ∀ id, r ≠ .getCommunitiesMembers id) (env : NodeEnv) (x : ℕ → Tick) :
    (serve svc s r env x).1 = (serve svc s' r env x).1 ∧ (serve svc s r env x).2.db = s.db ∧
      (serve svc s' r env x).2.db = s'.db ∧ (serve svc s r env x).2.cache = (serve svc s' r env x).2.cache := by
  have hstep : ∀ tick d d' q, Stmt.readsNoUser q = true → d = s.db ∧ d' = s'.db →
      (exec svc tick d q).1 = (exec svc tick d' q).1 ∧
        (exec svc tick d q).2 = s.db ∧ (exec svc tick d' q).2 = s'.db := by
    rintro tick d d' q hq ⟨rfl, rfl⟩
    exact exec_readsNoUser svc tick h.db hq
  obtain ⟨hanswer, ⟨hdb, hdb'⟩, hcache⟩ := (isPublicGet_sends svc env hr hmembers).run_two
    (fun d d' => d = s.db ∧ d' = s'.db) hstep (x := x) (m := s.cache) ⟨rfl, rfl⟩
  unfold serve
  rw [← h.cache]
  exact ⟨hanswer, hdb, hdb', hcache⟩

/-! ### The members of a community -/

def joinBoth (db db' : Db) (c : Uuid) : List (MemberProfile × MemberProfile) :=
  (db.communityMembers.filter (·.communityId = c)).flatMap fun m =>
    ((db.users.zip db'.users).filter (·.1.id = m.userId)).map fun u =>
      (⟨m, u.1.email, u.1.name⟩, ⟨m, u.2.email, u.2.name⟩)

theorem SamePublic.ids {db db' : Db} (h : SamePublic db db') :
    ∀ u ∈ db.users.zip db'.users, u.1.id = u.2.id := by
  intro u hu
  obtain ⟨k, hk, rfl⟩ := List.mem_iff_getElem.mp hu
  have hcolumns : (db.users.map publicColumns)[k]? = (db'.users.map publicColumns)[k]? := by rw [h.users]
  rw [List.length_zip] at hk
  simp only [List.getElem?_map, List.getElem_zip] at hcolumns ⊢
  rw [List.getElem?_eq_getElem (by omega), List.getElem?_eq_getElem (by omega)] at hcolumns
  exact congrArg (·.1) (Option.some.inj hcolumns)

theorem joinBoth_map {db db' : Db} (h : SamePublic db db') (c : Uuid) :
    (joinBoth db db' c).map Prod.fst = joinMembers db c ∧
      (joinBoth db db' c).map Prod.snd = joinMembers db' c := by
  have hlength : db.users.length = db'.users.length := by
    simpa using congrArg List.length h.users
  have hfst : db.users = (db.users.zip db'.users).map Prod.fst := (List.map_fst_zip (by omega)).symm
  have hsnd : db'.users = (db.users.zip db'.users).map Prod.snd := (List.map_snd_zip (by omega)).symm
  have hmembers : db'.communityMembers = db.communityMembers := by rw [h.rest]
  constructor
  · unfold joinBoth joinMembers
    rw [List.map_flatMap]
    refine congrArg (fun f => List.flatMap f _) (funext fun m => ?_)
    conv_rhs => rw [hfst]
    rw [List.filter_map, List.map_map, List.map_map]
    rfl
  · unfold joinBoth joinMembers
    rw [hmembers, List.map_flatMap]
    refine congrArg (fun f => List.flatMap f _) (funext fun m => ?_)
    conv_rhs => rw [hsnd]
    rw [List.filter_map, List.map_map, List.map_map]
    refine congrArg (List.map _) (List.filter_congr fun u hu => ?_)
    simp only [Function.comp, h.ids u hu]

theorem anyOrder_map {α β : Type} (tick : Tick) (id : β → Uuid) (f : α → β) (g : α → Uuid) (rows : List α)
    (h : ∀ a ∈ rows, id (f a) = g a) :
    anyOrder tick id (rows.map f) = (anyOrder tick g rows).map f := by
  unfold anyOrder
  refine (List.map_mergeSort fun a ha b hb => ?_).symm
  rw [h a ha, h b hb]

/-- **The rows are the same exactly if the members have the same email and name.** -/
theorem selectMembers_eq_iff {db db' : Db} (h : SamePublic db db') (tick : Tick) (c : Uuid) :
    selectMembers tick db (.uuid c) = selectMembers tick db' (.uuid c) ↔ MembersAgree db db' c := by
  obtain ⟨hfst, hsnd⟩ := joinBoth_map h c
  have hmember : ∀ p ∈ joinBoth db db' c, p.2.member.id = p.1.member.id := by
    intro p hp
    simp only [joinBoth, List.mem_flatMap, List.mem_map] at hp
    obtain ⟨m, -, u, -, rfl⟩ := hp
    rfl
  have hrows : selectMembers tick db (.uuid c) = selectMembers tick db' (.uuid c) ↔
      ∀ p ∈ joinBoth db db' c, p.1 = p.2 := by
    have h₁ := anyOrder_map tick (fun row : MemberProfile => row.member.id) Prod.fst
      (fun p => p.1.member.id) (joinBoth db db' c) fun _ _ => rfl
    have h₂ := anyOrder_map tick (fun row : MemberProfile => row.member.id) Prod.snd
      (fun p => p.1.member.id) (joinBoth db db' c) hmember
    simp only [selectMembers, Except.ok.injEq, ← hfst, ← hsnd]
    rw [h₁, h₂, List.map_inj_left]
    exact forall_congr' fun p => by rw [(anyOrder_perm tick _ _).mem_iff]
  rw [hrows]
  constructor
  · intro hall m hm hc u hu hid
    have hpair := hall (⟨m, u.1.email, u.1.name⟩, ⟨m, u.2.email, u.2.name⟩) (by
      simp only [joinBoth, List.mem_flatMap, List.mem_map, List.mem_filter, decide_eq_true_eq]
      exact ⟨m, ⟨hm, hc⟩, u, ⟨hu, hid⟩, rfl⟩)
    simpa using hpair
  · intro hagree p hp
    simp only [joinBoth, List.mem_flatMap, List.mem_map, List.mem_filter, decide_eq_true_eq] at hp
    obtain ⟨m, ⟨hm, hc⟩, u, ⟨hu, hid⟩, rfl⟩ := hp
    obtain ⟨hemail, hname⟩ := hagree m hm hc u hu hid
    simp [hemail, hname]

theorem members_serve (svc : Services) (s : ServerState) (id : IdParam) (env : NodeEnv) (x : ℕ → Tick) :
    (serve svc s (.getCommunitiesMembers id) env x).2 = s ∧
      (serve svc s (.getCommunitiesMembers id) env x).1 =
        match (x 0).fault, selectMembers (x 0) s.db id with
        | some message, _ => failure 500 message
        | none, .error e => failure 500 e.message
        | none, .ok rows => ⟨200, .members rows⟩ := by
  have hrun : ∀ out, (exec svc (x 0) s.db (.selectMembers id)) = out →
      serve svc s (.getCommunitiesMembers id) env x = (match out.1 with
        | .ok rows => (⟨200, .members rows⟩ : Response)
        | .error err => failure 500 err.message, ⟨out.2, s.cache⟩) := by
    rintro out rfl
    obtain ⟨k, hk, hok, herr⟩ := Prog.tryCatch_query (.selectMembers id)
      (fun rows => (pure ⟨200, .members rows⟩ : HandlerM Response))
      fun err : Thrown => .done (failure 500 err.message)
    have hhandler : ApiRequest.handler svc env (.getCommunitiesMembers id) = .query (.selectMembers id) k := hk
    rw [serve, hhandler, Prog.run]
    cases hanswer : (exec svc (x 0) s.db (.selectMembers id)).1 with
    | ok rows =>
      rw [hok]
      rfl
    | error err =>
      rw [herr]
      rfl
  cases hfault : (x 0).fault with
  | some message =>
    rw [hrun (.error (.pg (.other message)), s.db) (by rw [exec, hfault])]
    exact ⟨rfl, rfl⟩
  | none =>
    cases hrows : selectMembers (x 0) s.db id with
    | error e =>
      rw [hrun (.error (.pg e), s.db) (by rw [exec, hfault, execOk, hrows]; rfl)]
      exact ⟨rfl, rfl⟩
    | ok rows =>
      rw [hrun (.ok rows, s.db) (by rw [exec, hfault, execOk, hrows]; rfl)]
      exact ⟨rfl, rfl⟩

/-! ### A sequence of requests -/

def PublicGet.Agrees (db db' : Db) (g : PublicGet) : Prop :=
  ∀ c, g.request = .getCommunitiesMembers (.uuid c) → (g.tick 0).fault = none → MembersAgree db db' c

theorem get_eq_iff (svc : Services) {s s' : ServerState} (h : SameServer s s') (g : PublicGet) :
    ((serve svc s g.request g.env g.tick).1 = (serve svc s' g.request g.env g.tick).1 ↔ g.Agrees s.db s'.db) ∧
      (serve svc s g.request g.env g.tick).2.db = s.db ∧ (serve svc s' g.request g.env g.tick).2.db = s'.db ∧
      SameServer (serve svc s g.request g.env g.tick).2 (serve svc s' g.request g.env g.tick).2 := by
  by_cases hmembers : ∃ id, g.request = .getCommunitiesMembers id
  · obtain ⟨id, hid⟩ := hmembers
    obtain ⟨hsame, hanswer⟩ := members_serve svc s id g.env g.tick
    obtain ⟨hsame', hanswer'⟩ := members_serve svc s' id g.env g.tick
    rw [hid, hsame, hsame', hanswer, hanswer']
    refine ⟨?_, rfl, rfl, h⟩
    unfold PublicGet.Agrees
    rw [hid]
    cases hfault : (g.tick 0).fault with
    | some message => simp
    | none =>
      cases id with
      | malformed text => simp [selectMembers]
      | uuid c =>
        have hiff := selectMembers_eq_iff h.db (g.tick 0) c
        simp only [selectMembers, Except.ok.injEq] at hiff
        simp only [selectMembers, Response.mk.injEq, true_and, Body.members.injEq]
        rw [hiff]
        constructor
        · rintro hagree _ ⟨⟩ _
          exact hagree
        · intro hagree
          exact hagree c rfl trivial
  · have hmembers' : ∀ id, g.request ≠ .getCommunitiesMembers id := fun id hid => hmembers ⟨id, hid⟩
    obtain ⟨hanswer, hdb, hdb', hcache⟩ := same_serve svc h g.isPublic hmembers' g.env g.tick
    refine ⟨⟨fun _ c hc => absurd hc (hmembers' _), fun _ => hanswer⟩, hdb, hdb', ?_, hcache⟩
    rw [hdb, hdb']
    exact h.db

/-- **The responses to a sequence of public requests are the same exactly if every community whose members it
shows has members of the same email and name.** -/
theorem responses_eq_iff (svc : Services) {s s' : ServerState} (h : SameServer s s') (gets : List PublicGet) :
    responses svc s gets = responses svc s' gets ↔ ∀ g ∈ gets, g.Agrees s.db s'.db := by
  induction gets generalizing s s' with
  | nil => simp [responses]
  | cons g gets ih =>
    obtain ⟨hiff, hdb, hdb', hnext⟩ := get_eq_iff svc h g
    rw [responses, responses, List.cons.injEq, hiff, ih hnext, hdb, hdb', List.forall_mem_cons]

/-! ### Ana is a member -/

def anaIsMember (email : String) (phone : Option String) : ServerState where
  db :=
    { users := [{ id := 1, email, name := none, phone, passwordHash := none, createdAt := 0, updatedAt := 0 }]
      communities := [⟨2, "Loft", none, none, 1, 1, 0⟩]
      communityMembers := [{ id := 3, communityId := 2, userId := 1, role := "owner", joinedAt := 0 }] }

/-- `GET /communities/:id/members` of her community. -/
def getMembers : PublicGet := ⟨.getCommunitiesMembers (.uuid 2), rfl, ⟨0, "", 0⟩, fun _ => {}⟩

theorem sameServer_ana (email email' : String) (phone phone' : Option String) :
    SameServer (anaIsMember email phone) (anaIsMember email' phone') := ⟨⟨rfl, rfl⟩, rfl⟩

/-- Her phone is not shown. -/
theorem responses_eq_iff_phone :
    responses plainServices (anaIsMember "ana@x.org" (some "1")) [getMembers] =
      responses plainServices (anaIsMember "ana@x.org" (some "2")) [getMembers] := by
  refine (responses_eq_iff plainServices (sameServer_ana ..) [getMembers]).mpr ?_
  rintro g hg c - - m - - u hu -
  obtain rfl := List.mem_singleton.mp hu
  exact ⟨rfl, rfl⟩

/-- **Her email is**: everyone can read it. -/
theorem members_leak :
    ¬ ∀ (svc : Services) (s s' : ServerState), SameServer s s' →
      ∀ gets : List PublicGet, responses svc s gets = responses svc s' gets := by
  intro hclaim
  have hsame := hclaim plainServices (anaIsMember "ana@x.org" none) (anaIsMember "ana@y.org" none)
    (sameServer_ana ..) [getMembers]
  have hfirst := (List.cons.inj hsame).1
  have hagree := (get_eq_iff plainServices (sameServer_ana ..) getMembers).1.mp hfirst 2 rfl rfl
  have hemail := (hagree _ List.mem_cons_self rfl _ List.mem_cons_self rfl).1
  exact absurd hemail (by decide)

end Locus.Server
