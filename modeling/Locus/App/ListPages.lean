import Locus.App.CommunityList
import Locus.Server.ListCache
import Locus.Server.Pages

/-!
# Page after page of a list

`GET /communities`, `GET /properties` and `GET /notifications` number their pages, and each page is a query of its
own with `ORDER BY created_at DESC`. Nothing orders rows of one time, so two pages need not come from one order:
a row of such a tie can be on both pages that the tie reaches, and another on none. On a table that stays as it is
the pages of a limit hold every row once, whatever PostgreSQL does with ties, exactly when no tie reaches over the
end of a page (`pages_partition_iff`).

The three routes are instances of one description (`ListRoute`): a request shows the window of its page in some
order by time, from the cache or not, and every such order can be met (`ListRoute.Works`). The rest is the general
fact about windows of lists with ties (`Lib.Paging.pages_perm_iff`).
-/

namespace Locus.App

open Lib Server
open Lib.Paging (Ordered OnePage page pages)

/-- A request to the server, with the state it finds and what the server takes from its surroundings. -/
structure Fetch where
  server : ServerState
  request : ApiRequest
  env : NodeEnv
  x : ℕ → Tick

structure ListRoute (α : Type) where
  id : α → Uuid
  createdAt : α → Time
  /-- The rows that are listed. -/
  table : Db → List α
  /-- The largest limit, and the one for a request without a limit. -/
  most : ℤ
  usual : ℤ
  /-- The request is for the list, with `page` and `limit` in its query string. -/
  Asks : ApiRequest → NodeEnv → (page limit : Option String) → Prop
  /-- `data` of a response. -/
  data : Body → List α

section
variable {α : Type} (svc : Services) (list : ListRoute α)

def Fetch.rows (f : Fetch) : List α := list.data (serve svc f.server f.request f.env f.x).1.body

/-- The fetch finds the list as it is in `db`, asks for a page with a limit, and none of its statements fails.
The server's cache holds pages of the same list. -/
structure Fetch.Gets (db : Db) (p : JsInt) (limit : ℕ) (f : Fetch) : Prop where
  table : list.table f.server.db = list.table db
  coherent : CacheCoherent f.server
  works : ∀ n, (f.x n).fault = none
  asks : ∃ page limit', list.Asks f.request f.env page limit' ∧
    (paging list.most list.usual page limit').page = p ∧
    (paging list.most list.usual page limit').limit = .int limit

/-- `⌈N / limit⌉` -/
def pageCount (db : Db) (limit : ℕ) : ℕ := ((list.table db).length + limit - 1) / limit

/-- The pages `1` to `⌈N / limit⌉` show every row of the list exactly once, and a later page shows none. -/
def Partitions (db : Db) (limit : ℕ) : Prop :=
  (∀ fetch : ℕ → Fetch, (∀ i < pageCount list db limit, (fetch i).Gets list db (.int (i + 1 : ℕ)) limit) →
    ((List.range (pageCount list db limit)).flatMap fun i => (fetch i).rows svc list).Perm (list.table db)) ∧
  ∀ (f : Fetch) (p : JsInt), f.Gets list db p limit → (∀ i < pageCount list db limit, p ≠ .int (i + 1 : ℕ)) →
    f.rows svc list = []

/-- A response shows its page in some order by time, and any order can be the one. -/
structure ListRoute.Works : Prop where
  most : 1 ≤ list.most ∧ list.most < 2 ^ 53
  answer : ∀ {f : Fetch} {page limit : Option String} {l : ℕ}, CacheCoherent f.server →
    (∀ n, (f.x n).fault = none) → list.Asks f.request f.env page limit →
    (paging list.most list.usual page limit).limit = .int l → l < 2 ^ 63 →
    ∃ tick, f.rows svc list = shown (paging list.most list.usual page limit).page l
      (newestFirst tick list.id list.createdAt (list.table f.server.db))
  order : ∀ (db : Db) (tick : Tick) (page limit : Option String) {l : ℕ}, tick.fault = none →
    (paging list.most list.usual page limit).limit = .int l → l < 2 ^ 63 →
    ∃ f : Fetch, f.server.db = db ∧ CacheCoherent f.server ∧ (∀ n, (f.x n).fault = none) ∧
      list.Asks f.request f.env page limit ∧ f.rows svc list =
        shown (paging list.most list.usual page limit).page l
          (newestFirst tick list.id list.createdAt (list.table db))

variable {svc list} {db : Db} {limit : ℕ}

theorem ListRoute.Works.rows_eq (h : list.Works svc) {f : Fetch} {p : JsInt} (hf : f.Gets list db p limit) :
    ∃ l, Ordered list.createdAt (list.table db) l ∧ f.rows svc list = shown p limit l := by
  obtain ⟨page, limit', hasks, rfl, hlimit⟩ := hf.asks
  obtain ⟨tick, hrows⟩ := h.answer hf.coherent hf.works hasks hlimit (limit_lt h.most.1 h.most.2 hlimit)
  rw [hf.table] at hrows
  exact ⟨_, newestFirst_ordered tick list.id list.createdAt _, hrows⟩

theorem ListRoute.Works.exists_gets (h : list.Works svc) (hids : ((list.table db).map list.id).Nodup) {p : ℕ}
    (hp : 1 ≤ p) (hp' : p < 2 ^ 53) (hlimit : 1 ≤ limit) (hmost : limit ≤ list.most) {l : List α}
    (hl : Ordered list.createdAt (list.table db) l) :
    ∃ f : Fetch, f.Gets list db (.int p) limit ∧ f.rows svc list = shown (.int p) limit l := by
  obtain ⟨tieBreak, horder⟩ := exists_tieBreak hids hl
  obtain ⟨hpage, hlimit'⟩ := @paging_toString list.most list.usual p limit hp hp' hlimit hmost h.most.2
  obtain ⟨f, hdb, hcoherent, hworks, hasks, hrows⟩ := h.order db { tieBreak } (some (toString p))
    (some (toString limit)) rfl hlimit' (limit_lt h.most.1 h.most.2 hlimit')
  rw [horder _ rfl, hpage] at hrows
  exact ⟨f, ⟨congrArg list.table hdb, hcoherent, hworks, _, _, hasks, hpage, hlimit'⟩, hrows⟩

theorem lt_pageCount {i : ℕ} (hlimit : 1 ≤ limit) :
    i < pageCount list db limit ↔ i * limit < (list.table db).length := by
  unfold pageCount
  rw [Nat.lt_div_iff_mul_lt hlimit]
  omega

theorem length_le_pageCount (hlimit : 1 ≤ limit) :
    (list.table db).length ≤ pageCount list db limit * limit := by
  refine le_of_not_gt fun h => ?_
  exact lt_irrefl _ ((lt_pageCount hlimit).mpr h)

theorem shown_of_lt_pageCount (hcount : (list.table db).length < 2 ^ 31) (hlimit : 1 ≤ limit) {i : ℕ}
    (hi : i < pageCount list db limit) (l : List α) : shown (.int (i + 1 : ℕ)) limit l = page (i * limit) limit l := by
  have hrow := (lt_pageCount hlimit).mp hi
  exact shown_page hlimit (by omega) l

theorem ListRoute.Works.exists_fetches (h : list.Works svc) (hids : ((list.table db).map list.id).Nodup)
    (hcount : (list.table db).length < 2 ^ 31) (hlimit : 1 ≤ limit) (hmost : limit ≤ list.most) {lists : ℕ → List α}
    (hlists : ∀ i, Ordered list.createdAt (list.table db) (lists i)) :
    ∃ fetch : ℕ → Fetch, (∀ i < pageCount list db limit, (fetch i).Gets list db (.int (i + 1 : ℕ)) limit) ∧
      pages limit (pageCount list db limit) lists =
        (List.range (pageCount list db limit)).flatMap fun i => (fetch i).rows svc list := by
  have hfetch : ∀ i, ∃ f : Fetch, i < pageCount list db limit → f.Gets list db (.int (i + 1 : ℕ)) limit ∧
      f.rows svc list = page (i * limit) limit (lists i) := by
    intro i
    by_cases hi : i < pageCount list db limit
    · have hrow := (lt_pageCount hlimit).mp hi
      have hsmall := Nat.le_mul_of_pos_right i hlimit
      obtain ⟨f, hgets, hrows⟩ := h.exists_gets hids (p := i + 1) (by omega) (by omega) hlimit hmost (hlists i)
      exact ⟨f, fun _ => ⟨hgets, hrows.trans (shown_of_lt_pageCount hcount hlimit hi _)⟩⟩
    · exact ⟨⟨{}, .getRoot, ⟨0, "", 0⟩, fun _ => {}⟩, fun h => absurd h hi⟩
  choose fetch hfetch using hfetch
  refine ⟨fetch, fun i hi => (hfetch i hi).1, List.flatMap_congr fun i hi => ?_⟩
  exact ((hfetch i (List.mem_range.mp hi)).2).symm

theorem ListRoute.Works.exists_lists (h : list.Works svc) (hcount : (list.table db).length < 2 ^ 31)
    (hlimit : 1 ≤ limit) {fetch : ℕ → Fetch}
    (hgets : ∀ i < pageCount list db limit, (fetch i).Gets list db (.int (i + 1 : ℕ)) limit) :
    ∃ lists, (∀ i, Ordered list.createdAt (list.table db) (lists i)) ∧
      (List.range (pageCount list db limit)).flatMap (fun i => (fetch i).rows svc list) =
        pages limit (pageCount list db limit) lists := by
  have horder : ∀ i, ∃ l, Ordered list.createdAt (list.table db) l ∧
      (i < pageCount list db limit → (fetch i).rows svc list = page (i * limit) limit l) := by
    intro i
    by_cases hi : i < pageCount list db limit
    · obtain ⟨l, hl, hrows⟩ := h.rows_eq (hgets i hi)
      exact ⟨l, hl, fun _ => hrows.trans (shown_of_lt_pageCount hcount hlimit hi l)⟩
    · obtain ⟨l, hl⟩ := Lib.Paging.exists_ordered list.createdAt (list.table db)
      exact ⟨l, hl, fun h => absurd h hi⟩
  choose lists hlists hrows using horder
  exact ⟨lists, hlists, List.flatMap_congr fun i hi => hrows i (List.mem_range.mp hi)⟩

theorem ListRoute.Works.later_nil (h : list.Works svc) (hcount : (list.table db).length < 2 ^ 31) (hlimit : 1 ≤ limit)
    {f : Fetch} {p : JsInt} (hgets : f.Gets list db p limit)
    (hlater : ∀ i < pageCount list db limit, p ≠ .int (i + 1 : ℕ)) : f.rows svc list = [] := by
  obtain ⟨l, hl, hrows⟩ := h.rows_eq hgets
  rw [hrows]
  obtain ⟨page', limit', -, rfl, -⟩ := hgets.asks
  obtain hinf | ⟨p, hp, hpos⟩ := paging_page list.most list.usual page' limit'
  · rw [hinf]
    rfl
  · rw [hp] at hlater ⊢
    have hlength := hl.1.length_eq
    refine shown_later hpos hlimit (by omega) ?_
    rw [hlength]
    refine le_of_not_gt fun hlt => ?_
    refine hlater (p - 1) ((lt_pageCount hlimit).mpr hlt) ?_
    congr 1
    omega

/-- **The pages of a list hold every row once exactly when no tie reaches over the end of a page.** -/
theorem ListRoute.Works.partitions_iff (h : list.Works svc) (hids : ((list.table db).map list.id).Nodup)
    (hcount : (list.table db).length < 2 ^ 31) (hlimit : 1 ≤ limit) (hmost : limit ≤ list.most) :
    Partitions svc list db limit ↔ ∀ a ∈ list.table db, OnePage list.createdAt (list.table db) limit a := by
  rw [← Lib.Paging.pages_perm_iff hlimit (length_le_pageCount hlimit) (hids.of_map _)]
  constructor
  · rintro ⟨hperm, -⟩ lists hlists
    obtain ⟨fetch, hgets, hpages⟩ := h.exists_fetches hids hcount hlimit hmost hlists
    rw [hpages]
    exact hperm fetch hgets
  · intro hperm
    refine ⟨fun fetch hgets => ?_, fun f p hgets hlater => h.later_nil hcount hlimit hgets hlater⟩
    obtain ⟨lists, hlists, hpages⟩ := h.exists_lists hcount hlimit hgets
    rw [hpages]
    exact hperm lists hlists

end

/-! ### The three lists -/

/-- `GET /communities` without a point. -/
def communityList (svc : Services) : ListRoute CommunityRow where
  id := (·.id)
  createdAt := (·.createdAt)
  table := (·.communities)
  most := 50
  usual := 10
  Asks r _ page limit := ∃ q : ListQuery, r = .getCommunities q ∧ q.page = page ∧ q.limit = limit ∧
    (svc.parseFloat q.lat = "NaN" ∨ svc.parseFloat q.lng = "NaN")
  data
    | .communityPage page => page.data
    | _ => []

/-- `GET /properties` without a point. -/
def propertyList (svc : Services) : ListRoute PropertyRow where
  id := (·.id)
  createdAt := (·.createdAt)
  table := (·.properties)
  most := 50
  usual := 15
  Asks r _ page limit := ∃ q : ListQuery, r = .getProperties q ∧ q.page = page ∧ q.limit = limit ∧
    (svc.parseFloat q.lat = "NaN" ∨ svc.parseFloat q.lng = "NaN")
  data
    | .propertyPage page => page.data
    | _ => []

/-- `GET /notifications` of a user. -/
def notificationList (svc : Services) (u : Uuid) : ListRoute NotificationRow where
  id := (·.id)
  createdAt := (·.createdAt)
  table db := notificationsOf db u
  most := 100
  usual := 20
  Asks r env page limit := ∃ authorization user, r = .getNotifications authorization page limit ∧
    authenticate svc env authorization = some user ∧ user.id = u
  data
    | .notificationPage page => page.data
    | _ => []

section
variable {svc : Services}

theorem communityList_uncached {env : NodeEnv} {s : ServerState} {q : ListQuery} {x : ℕ → Tick} {l : ℕ}
    (hplain : svc.parseFloat q.lat = "NaN" ∨ svc.parseFloat q.lng = "NaN") (hx : ∀ n, (x n).fault = none)
    (hl : (paging 50 10 q.page q.limit).limit = .int l) (hl' : l < 2 ^ 63)
    (hcache : (lookupCache env.now (keyOf svc q) s.cache).1 = none) :
    (communityList svc).data (serve svc s (.getCommunities q) env x).1.body =
      shown (paging 50 10 q.page q.limit).page l (newestFirst (x 1) (·.id) (·.createdAt) s.db.communities) := by
  have hnotPoint : ¬ (svc.parseFloat q.lat ≠ "NaN" ∧ svc.parseFloat q.lng ≠ "NaN") := by
    rintro ⟨hlat, hlng⟩
    exact hplain.elim hlat hlng
  rw [shown_eq hl', ← hl]
  dsimp only [keyOf] at hcache
  unfold serve ApiRequest.handler Server.getCommunities
  dsimp only
  rw [getCached_run, hcache]
  dsimp only
  rw [if_neg hnotPoint]
  exact catch500_rows .countCommunities (.selectCommunities _ _) (communityList svc).data (fun rows => rows) hx rfl
    rfl (fun _ => rfl) fun _ _ => rfl

theorem communityList_cached {env : NodeEnv} {s : ServerState} {q : ListQuery} {x : ℕ → Tick} {l : ℕ}
    {cached : Page CommunityRow} (hs : CacheCoherent s)
    (hplain : svc.parseFloat q.lat = "NaN" ∨ svc.parseFloat q.lng = "NaN")
    (hl : (paging 50 10 q.page q.limit).limit = .int l) (hl' : l < 2 ^ 63)
    (hcache : (lookupCache env.now (keyOf svc q) s.cache).1 = some cached) :
    ∃ tick, (communityList svc).data (serve svc s (.getCommunities q) env x).1.body =
      shown (paging 50 10 q.page q.limit).page l (newestFirst tick (·.id) (·.createdAt) s.db.communities) := by
  obtain ⟨-, hcached⟩ := lookupCache_coherent hs (keyOf svc q) hplain env.now
  obtain ⟨tick, rows, hrows, rfl⟩ := hcached cached hcache
  refine ⟨tick, ?_⟩
  have hpage : shown (paging 50 10 q.page q.limit).page l
      (newestFirst tick (·.id) (·.createdAt) s.db.communities) = rows := by
    rw [shown_eq hl', ← hl]
    exact congrArg (fun r => (r.toOption.map fun rows => rows).getD []) hrows
  rw [hpage, serve_cached hcache]
  rfl

theorem propertyList_rows {env : NodeEnv} {s : ServerState} {q : ListQuery} {x : ℕ → Tick} {l : ℕ}
    (hplain : svc.parseFloat q.lat = "NaN" ∨ svc.parseFloat q.lng = "NaN") (hx : ∀ n, (x n).fault = none)
    (hl : (paging 50 15 q.page q.limit).limit = .int l) (hl' : l < 2 ^ 63) :
    (propertyList svc).data (serve svc s (.getProperties q) env x).1.body =
      shown (paging 50 15 q.page q.limit).page l (newestFirst (x 1) (·.id) (·.createdAt) s.db.properties) := by
  have hnotPoint : ¬ (svc.parseFloat q.lat ≠ "NaN" ∧ svc.parseFloat q.lng ≠ "NaN") := by
    rintro ⟨hlat, hlng⟩
    exact hplain.elim hlat hlng
  rw [shown_eq hl', ← hl]
  unfold serve ApiRequest.handler Server.getProperties
  dsimp only
  rw [if_neg hnotPoint]
  exact catch500_rows .countProperties (.selectProperties _ _) (propertyList svc).data (fun rows => rows) hx rfl
    rfl (fun _ => rfl) fun _ _ => rfl

theorem notificationList_rows {env : NodeEnv} {s : ServerState} {authorization page limit : Option String}
    {user : AuthUser} {x : ℕ → Tick} {l : ℕ} (huser : authenticate svc env authorization = some user)
    (hx : ∀ n, (x n).fault = none) (hl : (paging 100 20 page limit).limit = .int l) (hl' : l < 2 ^ 63) :
    (notificationList svc user.id).data (serve svc s (.getNotifications authorization page limit) env x).1.body =
      shown (paging 100 20 page limit).page l
        (newestFirst (x 1) (·.id) (·.createdAt) (notificationsOf s.db user.id)) := by
  rw [shown_eq hl', ← hl]
  unfold serve ApiRequest.handler Server.getNotifications
  dsimp only
  rw [authMiddleware_some svc env _ huser]
  exact catch500_rows (.countNotifications user.id) (.selectNotifications user.id _ _)
    (notificationList svc user.id).data (fun rows => rows) hx rfl rfl (fun _ => rfl) fun _ _ => rfl

theorem communityList_works (hnan : svc.parseFloat none = "NaN") : (communityList svc).Works svc where
  most := ⟨by norm_num [communityList], by norm_num [communityList]⟩
  answer := by
    rintro ⟨s, r, env, x⟩ page limit l hs hx ⟨q, rfl, rfl, rfl, hplain⟩ hl hl'
    cases hlookup : (lookupCache env.now (keyOf svc q) s.cache).1 with
    | none => exact ⟨x 1, communityList_uncached hplain hx hl hl' hlookup⟩
    | some cached => exact communityList_cached hs hplain hl hl' hlookup
  order := by
    intro db tick page limit l htick hl hl'
    refine ⟨⟨⟨db, []⟩, .getCommunities { page, limit }, ⟨0, "", 0⟩, fun _ => tick⟩, rfl, ?_, fun _ => htick,
      ⟨_, rfl, rfl, rfl, .inl hnan⟩, communityList_uncached (.inl hnan) (fun _ => htick) hl hl' rfl⟩
    rintro e ⟨⟩

theorem propertyList_works (hnan : svc.parseFloat none = "NaN") : (propertyList svc).Works svc where
  most := ⟨by norm_num [propertyList], by norm_num [propertyList]⟩
  answer := by
    rintro ⟨s, r, env, x⟩ page limit l - hx ⟨q, rfl, rfl, rfl, hplain⟩ hl hl'
    exact ⟨x 1, propertyList_rows hplain hx hl hl'⟩
  order := by
    intro db tick page limit l htick hl hl'
    refine ⟨⟨⟨db, []⟩, .getProperties { page, limit }, ⟨0, "", 0⟩, fun _ => tick⟩, rfl, ?_, fun _ => htick,
      ⟨_, rfl, rfl, rfl, .inl hnan⟩, propertyList_rows (.inl hnan) (fun _ => htick) hl hl'⟩
    rintro e ⟨⟩

def SignedIn (svc : Services) (u : Uuid) : Prop :=
  ∃ env authorization user, authenticate svc env authorization = some user ∧ user.id = u

theorem notificationList_works {u : Uuid} (hu : SignedIn svc u) : (notificationList svc u).Works svc where
  most := ⟨by norm_num [notificationList], by norm_num [notificationList]⟩
  answer := by
    rintro ⟨s, r, env, x⟩ page limit l - hx ⟨authorization, user, rfl, huser, rfl⟩ hl hl'
    exact ⟨x 1, notificationList_rows huser hx hl hl'⟩
  order := by
    obtain ⟨env, authorization, user, huser, rfl⟩ := hu
    intro db tick page limit l htick hl hl'
    refine ⟨⟨⟨db, []⟩, .getNotifications authorization page limit, env, fun _ => tick⟩, rfl, ?_, fun _ => htick,
      ⟨authorization, user, rfl, huser, rfl⟩, notificationList_rows huser (fun _ => htick) hl hl'⟩
    rintro e ⟨⟩

/-- The ids of the list are distinct, as `id` is the primary key, and `COUNT(*)::int` holds their number. -/
structure Listable {α : Type} (list : ListRoute α) (db : Db) : Prop where
  ids : ((list.table db).map list.id).Nodup
  count : (list.table db).length < 2 ^ 31

/-- Rows with one `created_at` never reach over the end of a page. -/
def CutsNoTie {α : Type} (list : ListRoute α) (db : Db) (limit : ℕ) : Prop :=
  ∀ a ∈ list.table db, OnePage list.createdAt (list.table db) limit a

instance {α : Type} (list : ListRoute α) (db : Db) (limit : ℕ) : Decidable (CutsNoTie list db limit) :=
  inferInstanceAs (Decidable (∀ a ∈ list.table db, OnePage list.createdAt (list.table db) limit a))

/-- **The pages of the three lists hold every row once exactly when no tie reaches over the end of a page.** -/
theorem pages_partition_iff (hnan : svc.parseFloat none = "NaN") {u : Uuid} (hu : SignedIn svc u) {db : Db} {limit : ℕ}
    (hlimit : 1 ≤ limit) :
    (Listable (communityList svc) db → limit ≤ 50 →
      (Partitions svc (communityList svc) db limit ↔ CutsNoTie (communityList svc) db limit)) ∧
    (Listable (propertyList svc) db → limit ≤ 50 →
      (Partitions svc (propertyList svc) db limit ↔ CutsNoTie (propertyList svc) db limit)) ∧
    (Listable (notificationList svc u) db → limit ≤ 100 →
      (Partitions svc (notificationList svc u) db limit ↔ CutsNoTie (notificationList svc u) db limit)) := by
  refine ⟨fun h hmost => ?_, fun h hmost => ?_, fun h hmost => ?_⟩
  · exact (communityList_works hnan).partitions_iff h.ids h.count hlimit (show (limit : ℤ) ≤ 50 by omega)
  · exact (propertyList_works hnan).partitions_iff h.ids h.count hlimit (show (limit : ℤ) ≤ 50 by omega)
  · exact (notificationList_works hu).partitions_iff h.ids h.count hlimit (show (limit : ℤ) ≤ 100 by omega)

end

/-! ### A tie -/

/-- Communities with the ids `0`, `1`, ... and the given times. -/
def communitiesAt (times : List Time) : Db where
  communities := times.zipIdx.map fun t =>
    { id := t.2, name := "Casa", description := none, location := none, ownerId := 1, memberCount := 1,
      createdAt := t.1 }

theorem communitiesAt_listable (times : List Time) (h : times.length < 2 ^ 31) :
    Listable (communityList plainServices) (communitiesAt times) where
  ids := by
    have hids : (communitiesAt times).communities.map (·.id) = List.range times.length := by
      simp [communitiesAt, Function.comp_def, ← List.range_eq_range']
    exact hids ▸ List.nodup_range
  count := by simpa [communityList, communitiesAt] using h

theorem ana_signedIn : SignedIn plainServices 1 :=
  ⟨⟨0, "", 0⟩, some "Bearer 1.0.ana@x.org", ⟨1, "ana@x.org"⟩, by decide +kernel, rfl⟩

/-- Two communities of one time, on one page. -/
theorem pages_partition_iff_three :
    Partitions plainServices (communityList plainServices) (communitiesAt [1, 1, 0]) 2 :=
  ((pages_partition_iff rfl ana_signedIn (by decide)).1 (communitiesAt_listable _ (by decide)) (by decide)).mpr
    (by decide)

/-- Two communities of one time, one a page: one of them may be on both pages. -/
theorem tie_cut : ¬ Partitions plainServices (communityList plainServices) (communitiesAt [0, 0]) 1 := by
  have hlist := communitiesAt_listable [0, 0] (by decide)
  rw [(communityList_works rfl).partitions_iff hlist.ids hlist.count (by decide) (by decide)]
  decide

end Locus.App
