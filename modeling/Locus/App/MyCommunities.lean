import Locus.Server.ListCache

/-!
# My communities

The home and the finance screen ask for `GET /communities?mine=true`. The Go handler of that route takes the
user from the token and passes `mine` on; the Node route reads neither, so it answers with all communities, or
with those around a point. The answer is right exactly for a user who is in every community
(`myCommunities_iff`).

Proof. Whatever the interleaving, each page in the cache and each page that is sent has rows that the key of
its request selects, and their number (`PageOf`); the cache is shared, and no request changes the tables
(`Pool.safe`).
-/

namespace Locus.App

open Lib Server

/-! ### The requests -/

/-- A request for the list: who signed in asks, the parameter `mine`, and the others. -/
structure CommunitiesAsk where
  user : Option Uuid
  mine : Bool
  query : ListQuery
  env : NodeEnv

/-- `useMyCommunities` of the home screen, and the query of the finance screen: `/communities?mine=true`. -/
def myCommunities (user : Uuid) (env : NodeEnv) : CommunitiesAsk := ⟨some user, true, {}, env⟩

/-- `GET /communities` of the Node server: it reads neither the token nor `mine`. -/
def answerAsk (svc : Services) (ask : CommunitiesAsk) : Handler := Server.getCommunities svc ask.env ask.query

/-- Requests for the list in flight, on tables that nothing else changes and a cache that is empty at first. -/
def askSystem {ι : Type} [DecidableEq ι] (svc : Services) (asks : ι → CommunitiesAsk) (db : Db) :
    System (RequestPool ι) (PoolEvent ι Tick) :=
  Pool.system (fun i => answerAsk svc (asks i)) (exec svc) fun d cache => d = db ∧ cache = []

/-! ### What is mine -/

def mineOf (db : Db) (user : Uuid) : List CommunityRow := db.communities.filter fun c => isMember db c.id user

/-- The page shows the user's communities only, and counts them. -/
def OnlyMine (db : Db) (user : Uuid) (page : Page CommunityRow) : Prop :=
  (∀ c ∈ page.data, isMember db c.id user = true) ∧ page.total = (mineOf db user).length

/-- A page that answers `mine=true` shows the communities of the user who asks. -/
def ShowsMine (db : Db) (ask : CommunitiesAsk) (page : Page CommunityRow) : Prop :=
  ∀ user, ask.user = some user → ask.mine = true → OnlyMine db user page

/-! ### What the list selects -/

def HasPoint (key : CacheKey) : Prop := key.lat ≠ "NaN" ∧ key.lng ≠ "NaN"

/-- The rows that the request selects, before they are cut into pages. -/
def Selects (svc : Services) (db : Db) (key : CacheKey) (rows : List CommunityRow) : Prop :=
  (HasPoint key ∧ selectNearby svc.float8 (·.location) key.lat key.lng key.radius db.communities = .ok rows) ∨
    (¬HasPoint key ∧ rows = db.communities)

/-- A request with `mine=true` selects just the communities of its user. -/
def SelectsMine (svc : Services) (db : Db) (ask : CommunitiesAsk) : Prop :=
  ∀ user, ask.user = some user → ask.mine = true →
    ∀ rows, Selects svc db (keyOf svc ask.query) rows → rows = mineOf db user

/-- The page has rows that the key selects, and their number. -/
def PageOf (svc : Services) (db : Db) (key : CacheKey) (page : Page CommunityRow) : Prop :=
  ∃ rows, Selects svc db key rows ∧ page.total = rows.length ∧ ∀ c ∈ page.data, c ∈ rows

/-- The pages of the cache are those of their keys. -/
def CacheOf (svc : Services) (db : Db) (cache : Cache) : Prop := ∀ e ∈ cache, PageOf svc db e.1 e.2.data

/-- A page that is sent is one of the key. -/
def Answers (svc : Services) (db : Db) (key : CacheKey) (r : Response) : Prop :=
  ∀ page, r.body = .communityPage page → PageOf svc db key page

section
variable {svc : Services} {db : Db} {key : CacheKey}

theorem getCached_safe {now : Time} {f : Option (Page CommunityRow) → HandlerM Response} {F : Response → Prop}
    (h : ∀ found, (∀ page, found = some page → PageOf svc db key page) →
      (catch500 (f found)).Safe (exec svc) (· = db) (CacheOf svc db) F) :
    (catch500 (getCached now key >>= f)).Safe (exec svc) (· = db) (CacheOf svc db) F := by
  intro cache hcache
  obtain ⟨hrest, hfound⟩ := lookupCache_forall hcache now key
  refine ⟨hrest, h _ fun page hpage => ?_⟩
  obtain ⟨ts, hentry⟩ := hfound page hpage
  exact hentry

theorem setCache_safe (now : Time) {page : Page CommunityRow} (h : PageOf svc db key page) :
    (catch500 (setCache now key page >>= fun _ => pure ⟨200, .communityPage page⟩)).Safe (exec svc) (· = db)
      (CacheOf svc db) (Answers svc db key) := by
  intro cache hcache
  refine ⟨TtlCache.put_forall hcache h, fun page' hpage' => ?_⟩
  cases hpage'
  exact h

theorem failure_answers (err : Thrown) : Answers svc db key (failure 500 err.message) := by
  intro page hpage
  cases hpage

theorem pageOf_point (hpoint : HasPoint key) {tick tick' : Tick} {limit offset page size : JsInt} {total : ℕ}
    {data : List CommunityRow}
    (htotal : (exec svc tick db (.countCommunitiesNearby key.lat key.lng key.radius)).1 = .ok total)
    (hdata : (exec svc tick' db (.selectCommunitiesNearby key.lat key.lng key.radius limit offset)).1 = .ok data) :
    PageOf svc db key ⟨data, total, page, size⟩ := by
  obtain ⟨d, hcount⟩ := exec_ok htotal
  obtain ⟨d', hselect⟩ := exec_ok hdata
  have hlength := ok_of_map hcount
  have hpage := ok_of_map hselect
  obtain ⟨rows, hrows, hpage⟩ := bind_eq_ok.mp hpage
  rw [hrows] at hlength
  cases hlength
  exact ⟨rows, .inl ⟨hpoint, hrows⟩, rfl, mem_pageOf hpage⟩

theorem pageOf_plain (hpoint : ¬HasPoint key) {tick tick' : Tick} {limit offset page size : JsInt} {total : ℕ}
    {data : List CommunityRow} (htotal : (exec svc tick db .countCommunities).1 = .ok total)
    (hdata : (exec svc tick' db (.selectCommunities limit offset)).1 = .ok data) :
    PageOf svc db key ⟨data, total, page, size⟩ := by
  obtain ⟨d, hcount⟩ := exec_ok htotal
  obtain ⟨d', hselect⟩ := exec_ok hdata
  cases hcount
  exact ⟨db.communities, .inr ⟨hpoint, rfl⟩, rfl, mem_pageOf (ok_of_map hselect)⟩

theorem list_safe {q : Stmt} (hq : q.isList = true) {f : Answer q → HandlerM Response}
    (h : ∀ tick a, (exec svc tick db q).1 = .ok a →
      (catch500 (f a)).Safe (exec svc) (· = db) (CacheOf svc db) (Answers svc db key)) :
    (catch500 (query q >>= f)).Safe (exec svc) (· = db) (CacheOf svc db) (Answers svc db key) := by
  refine Prog.tryCatch_safe ?_ ?_ failure_answers
  · rintro tick d rfl
    exact exec_isList_db svc tick d hq
  · rintro tick d a rfl ha
    exact h tick a ha

/-- **A request for the list keeps the cache right and sends a page of its key.** -/
theorem answerAsk_safe (ask : CommunitiesAsk) : (answerAsk svc ask).Safe (exec svc) (· = db) (CacheOf svc db)
    (Answers svc db (keyOf svc ask.query)) := by
  refine getCached_safe fun found hfound => ?_
  cases found with
  | some cached =>
    intro page hpage
    cases hpage
    exact hfound cached rfl
  | none =>
    dsimp only
    by_cases hpoint : HasPoint (keyOf svc ask.query)
    · rw [if_pos (show svc.parseFloat ask.query.lat ≠ "NaN" ∧ svc.parseFloat ask.query.lng ≠ "NaN" from hpoint)]
      exact list_safe rfl fun tick total htotal => list_safe rfl fun tick' data hdata =>
        setCache_safe _ (pageOf_point hpoint htotal hdata)
    · rw [if_neg (show ¬(svc.parseFloat ask.query.lat ≠ "NaN" ∧ svc.parseFloat ask.query.lng ≠ "NaN") from hpoint)]
      exact list_safe rfl fun tick total htotal => list_safe rfl fun tick' data hdata =>
        setCache_safe _ (pageOf_plain hpoint htotal hdata)

theorem asks_answered {ι : Type} [DecidableEq ι] {asks : ι → CommunitiesAsk} {s : RequestPool ι}
    (hs : (askSystem svc asks db).Reachable System.Any s) {i : ι} {r : Response}
    (hr : (s.thread i).result = some r) : Answers svc db (keyOf svc (asks i).query) r := by
  have hsafe := Pool.safe (J := (· = db)) (I := CacheOf svc db)
    (F := fun i => Answers svc db (keyOf svc (asks i).query)) (fun i => answerAsk_safe (asks i)) ?_ hs
  · exact hsafe.result hr
  · rintro d cache ⟨rfl, rfl⟩
    exact ⟨rfl, fun e he => absurd he List.not_mem_nil⟩

/-! ### When the answer is right -/

variable {user : Uuid} {page : Page CommunityRow}

theorem onlyMine_of_selects (hpage : PageOf svc db key page)
    (hmine : ∀ rows, Selects svc db key rows → rows = mineOf db user) : OnlyMine db user page := by
  obtain ⟨rows, hrows, htotal, hdata⟩ := hpage
  obtain rfl := hmine rows hrows
  exact ⟨fun c hc => (List.mem_filter.mp (hdata c hc)).2, htotal⟩

theorem selects_of_onlyMine (hpoint : ¬HasPoint key) (hpage : PageOf svc db key page)
    (hmine : OnlyMine db user page) : ∀ rows, Selects svc db key rows → rows = mineOf db user := by
  have hall : ∀ rows, Selects svc db key rows → rows = db.communities := by
    rintro rows (⟨h, -⟩ | ⟨-, h⟩)
    · exact absurd h hpoint
    · exact h
  obtain ⟨rows, hrows, htotal, -⟩ := hpage
  rw [hall rows hrows, hmine.2, mineOf, List.length_filter_eq_length_iff] at htotal
  intro rows' hrows'
  rw [hall rows' hrows', mineOf, List.filter_eq_self.mpr htotal]

end

/-- **The answer to `mine=true` is right if the request selects just the communities of its user**, and without
a point, as the app asks, only then. -/
theorem myCommunities_iff {ι : Type} [DecidableEq ι] {svc : Services} {asks : ι → CommunitiesAsk} {db : Db}
    {s : RequestPool ι} (hs : (askSystem svc asks db).Reachable System.Any s) {i : ι} {status : ℕ}
    {page : Page CommunityRow} (hresult : (s.thread i).result = some ⟨status, .communityPage page⟩) :
    (SelectsMine svc db (asks i) → ShowsMine db (asks i) page) ∧
    (¬HasPoint (keyOf svc (asks i).query) → ShowsMine db (asks i) page → SelectsMine svc db (asks i)) := by
  have hpage := asks_answered hs hresult page rfl
  refine ⟨fun hselects user huser hmine => ?_, fun hpoint hshows user huser hmine => ?_⟩
  · exact onlyMine_of_selects hpage (hselects user huser hmine)
  · exact selects_of_onlyMine hpoint hpage (hshows user huser hmine)

def asksMine (user : Uuid) : Unit → CommunitiesAsk := fun _ => myCommunities user ⟨0, "", 0⟩

/-- There is one community, and Ana is its member. -/
def anasCasa : Db :=
  { casa with communityMembers := [{ id := 1, communityId := 1, userId := 1, role := "admin", joinedAt := 0 }] }

def totalOf : Option Response → Option ℕ
  | some ⟨_, .communityPage page⟩ => some page.total
  | _ => none

theorem totalOf_some {r : Option Response} {n : ℕ} (h : totalOf r = some n) :
    ∃ status page, r = some ⟨status, .communityPage page⟩ ∧ page.total = n := by
  unfold totalOf at h
  split at h
  · exact ⟨_, _, rfl, Option.some.inj h⟩
  · cases h

theorem asksMine_run (user : Uuid) : ∃ s status page,
    (askSystem plainServices (asksMine user) anasCasa).Reachable System.Any s ∧
      (s.thread ()).result = some ⟨status, .communityPage page⟩ ∧ page.total = 1 := by
  have hsame : askSystem plainServices (asksMine user) anasCasa = askSystem plainServices (asksMine 1) anasCasa := rfl
  obtain ⟨s, hs, htotal⟩ := System.reachable_of_exec (askSystem plainServices (asksMine 1) anasCasa) (fun _ _ => true)
    (fun s => totalOf (s.thread ()).result) [.start (), .answer () {}, .answer () {}] (a := some 1)
    (s := ⟨anasCasa, [], fun _ => .idle⟩) ⟨⟨rfl, rfl⟩, fun _ => rfl⟩ (by decide +kernel)
  obtain ⟨status, page, hresult, hone⟩ := totalOf_some htotal
  rw [hsame]
  exact ⟨s, status, page, hs.mono fun _ _ _ => trivial, hresult, hone⟩

/-- It is hers. -/
theorem myCommunities_iff_ana : ∃ s status page,
    (askSystem plainServices (asksMine 1) anasCasa).Reachable System.Any s ∧
      (s.thread ()).result = some ⟨status, .communityPage page⟩ ∧ ShowsMine anasCasa (asksMine 1 ()) page := by
  obtain ⟨s, status, page, hs, hresult, -⟩ := asksMine_run 1
  refine ⟨s, status, page, hs, hresult, (myCommunities_iff hs hresult).1 ?_⟩
  rintro user ⟨⟩ - rows (⟨⟨hlat, -⟩, -⟩ | ⟨-, rfl⟩)
  · exact absurd rfl hlat
  · rfl

/-- **Bea is told of Ana's community** when she asks for hers. -/
theorem bea_sees_anas :
    ¬ ∀ (ι : Type) [DecidableEq ι] (svc : Services) (asks : ι → CommunitiesAsk) (db : Db) (s : RequestPool ι),
      (askSystem svc asks db).Reachable System.Any s → ∀ i status page,
        (s.thread i).result = some ⟨status, .communityPage page⟩ → ShowsMine db (asks i) page := by
  intro hclaim
  obtain ⟨s, status, page, hs, hresult, htotal⟩ := asksMine_run 2
  obtain ⟨-, hmine⟩ := hclaim Unit plainServices (asksMine 2) anasCasa s hs () status page hresult 2 rfl rfl
  have hzero : (mineOf anasCasa 2).length = 0 := rfl
  omega

end Locus.App
