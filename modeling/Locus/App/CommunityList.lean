import Locus.Server.GeoQueries

/-!
# The community list of the app

`CommunitiesScreen` pages through `GET /communities` with an infinite query. It looks for the number of the
next page in `meta` of the last answer; the server's envelope `{ success, data, total, page, limit }` has no
such member. The list therefore ends behind its first page of 15 rows, whatever the table holds, and is
complete exactly for tables of at most 15 rows (`list_complete_iff`).

Proof. What the server's cache holds is what the table answers as long as the table stays as it is
(`CacheCoherent`), so a fetch, from the cache or not, appends the 15 newest rows (`fetch_first`) and leaves
no next page (`nextPageParam_readBody`): every run is at most one fetch long (`run_shape`).
-/

namespace Locus.App

open Lib Server

/-! ### The screen -/

/-- What `getNextPageParam` reads of a `PaginationMeta`. -/
structure PaginationMeta where
  page : ℤ
  totalPages : ℤ

/-- What the screen reads of the body of an answer: its members `data` and `meta`. -/
structure ListAnswer where
  data : Option (List CommunityRow)
  paginationMeta : Option PaginationMeta

/-- `last.meta?.page < last.meta?.total_pages ? last.meta.page + 1 : undefined` -/
def getNextPageParam (last : ListAnswer) : Option ℤ :=
  match last.paginationMeta with
  | none => none -- `undefined < undefined` is false
  | some m => if m.page < m.totalPages then some (m.page + 1) else none

/-- The query string of `queryFn` without a search or a type; the server does not read its `sort`. -/
def listQuery (pageParam : ℤ) : ListQuery := { page := some (toString pageParam), limit := some "15" }

/-- The page that `fetchNextPage` asks for; `none` when `hasNextPage` is false. -/
def nextPageParam (pages : List ListAnswer) : Option ℤ :=
  match pages.getLast? with
  | none => some 1
  | some last => getNextPageParam last

/-- `data?.pages.flatMap((p) => p.data ?? [])` -/
def communities (pages : List ListAnswer) : List CommunityRow := pages.flatMap fun p => p.data.getD []

/-- A body of the server as the screen reads it: none has a member `meta`. -/
def readBody : Body → ListAnswer
  | .communityPage page => ⟨some page.data, none⟩
  | _ => ⟨none, none⟩

structure ListState where
  server : ServerState
  pages : List ListAnswer := []

/-- `useInfiniteQuery` of the screen: each event is a `fetchNextPage`, with what the server takes from its
surroundings. A status other than 200 rejects the query and adds no page. -/
def infiniteQuery (svc : Services) : System ListState (NodeEnv × (ℕ → Tick)) where
  Init l := l.pages = []
  step l
    | (env, x) => (nextPageParam l.pages).map fun pageParam =>
      let out := serve svc l.server (.getCommunities (listQuery pageParam)) env x
      if out.1.status = 200 then { server := out.2, pages := l.pages ++ [readBody out.1.body] }
      else { l with server := out.2 }

def fetchWorks (_ : ListState) (e : NodeEnv × (ℕ → Tick)) : Prop := ∀ n, (e.2 n).fault = none

/-- Fetching until `hasNextPage` is false comes to an end, and then the pages hold every community of the
table exactly once. -/
def ListComplete (svc : Services) (s : ServerState) : Prop :=
  (∃ n, ∀ tr l, (infiniteQuery svc).Run fetchWorks ⟨s, []⟩ tr l → tr.length ≤ n) ∧
  ∀ tr l, (infiniteQuery svc).Run fetchWorks ⟨s, []⟩ tr l → nextPageParam l.pages = none →
    ∀ c ∈ s.db.communities, ∃! n : ℕ, (communities l.pages)[n]? = some c

/-! ### The server's pages -/

/-- The page holds what the table answers for a limit and an offset. -/
def Shows (db : Db) (p : Paging) (page : Page CommunityRow) : Prop :=
  ∃ (tick : Tick) (rows : List CommunityRow),
    pageOf p.limit p.offset (newestFirst tick (·.id) (·.createdAt) db.communities) = .ok rows ∧
    page = { data := rows, total := db.communities.length, page := p.page, limit := p.limit }

/-- The cached pages of lists without a point hold what the table answers: it has not changed since. -/
def CacheCoherent (s : ServerState) : Prop :=
  ∀ e ∈ s.cache, (e.1.lat = "NaN" ∨ e.1.lng = "NaN") →
    Shows s.db ⟨e.1.page, e.1.limit, e.1.page.offset e.1.limit⟩ e.2.data

section
variable {svc : Services} {s : ServerState} {q : ListQuery} {x : ℕ → Tick}

theorem lookupCache_coherent (hs : CacheCoherent s) (key : CacheKey) (hkey : key.lat = "NaN" ∨ key.lng = "NaN")
    (now : Time) :
    CacheCoherent ⟨s.db, (lookupCache now key s.cache).2⟩ ∧
    ∀ page, (lookupCache now key s.cache).1 = some page →
      Shows s.db ⟨key.page, key.limit, key.page.offset key.limit⟩ page := by
  obtain ⟨hrest, hfound⟩ := lookupCache_forall hs now key
  refine ⟨hrest, fun page hpage => ?_⟩
  obtain ⟨ts, hentry⟩ := hfound page hpage
  exact hentry hkey

theorem serve_getCommunities (env : NodeEnv) (hs : CacheCoherent s)
    (hplain : svc.parseFloat q.lat = "NaN" ∨ svc.parseFloat q.lng = "NaN") (hpage : Pageable 10 q)
    (hx : ∀ n, (x n).fault = none) :
    ∃ page cache, serve svc s (.getCommunities q) env x = (⟨200, .communityPage page⟩, ⟨s.db, cache⟩) ∧
      Shows s.db (paging 50 10 q.page q.limit) page ∧ CacheCoherent ⟨s.db, cache⟩ := by
  let key : CacheKey := ⟨svc.parseFloat q.lat, svc.parseFloat q.lng, radiusOf svc q,
    (paging 50 10 q.page q.limit).page, (paging 50 10 q.page q.limit).limit⟩
  obtain ⟨hcache, hcached⟩ := lookupCache_coherent hs key hplain env.now
  obtain ⟨rows, hrows⟩ := pageOf_ok hpage (newestFirst (x 1) (·.id) (·.createdAt) s.db.communities)
  have hselect : execOk svc (x 1) s.db (.selectCommunities (paging 50 10 q.page q.limit).limit
      (paging 50 10 q.page q.limit).offset) = .ok (rows, s.db) := by
    rw [execOk, hrows]
    rfl
  have hnotPoint : ¬ (svc.parseFloat q.lat ≠ "NaN" ∧ svc.parseFloat q.lng ≠ "NaN") := by
    rintro ⟨hlat, hlng⟩
    exact hplain.elim hlat hlng
  cases hlookup : (lookupCache env.now key s.cache).1 with
  | some page =>
    refine ⟨page, (lookupCache env.now key s.cache).2, serve_of_run ?_, hcached page hlookup, hcache⟩
    rw [ApiRequest.handler, Server.getCommunities]
    dsimp only
    rw [getCached_run, hlookup]
    rfl
  | none =>
    let page : Page CommunityRow :=
      ⟨rows, s.db.communities.length, (paging 50 10 q.page q.limit).page, (paging 50 10 q.page q.limit).limit⟩
    have hshows : Shows s.db (paging 50 10 q.page q.limit) page := ⟨x 1, rows, hrows, rfl⟩
    refine ⟨page, (key, ⟨page, env.now⟩) :: (lookupCache env.now key s.cache).2.filter fun e => e.1 ≠ key,
      serve_of_run ?_, hshows, ?_⟩
    · rw [ApiRequest.handler, Server.getCommunities]
      dsimp only
      rw [getCached_run, hlookup]
      dsimp only
      rw [if_neg hnotPoint, catch500_run_ok (q := .countCommunities) _ _ (hx 0) rfl,
        catch500_run_ok (x := fun n => x (n + 1)) _ _ (hx 1) hselect]
      rfl
    · exact TtlCache.put_forall hcache fun _ => hshows

end

/-! ### The list -/

def IsFirstPage (s : ServerState) (rows : List CommunityRow) : Prop :=
  ∃ tick, rows = (newestFirst tick (·.id) (·.createdAt) s.db.communities).take 15

theorem paging_listQuery : paging 50 10 (listQuery 1).page (listQuery 1).limit = ⟨.int 1, .int 15, .int 0⟩ := by
  have hone : (listQuery 1).page = some "1" := rfl
  have hparse : JsInt.parse (some "1") = .int 1 ∧ JsInt.parse (some "15") = .int 15 := by decide +kernel
  have hzero : JsInt.ofInt 0 = .int 0 := by decide +kernel
  rw [hone, paging, listQuery, hparse.1, hparse.2]
  simp [JsInt.orElse, JsInt.max, JsInt.min, JsInt.offset, hzero]

theorem nextPageParam_readBody (body : Body) : nextPageParam [readBody body] = none := by
  cases body <;> rfl

variable {svc : Services} {s : ServerState}

theorem fetch_first (hnan : svc.parseFloat none = "NaN") (hs : CacheCoherent s) {e : NodeEnv × (ℕ → Tick)}
    {l : ListState} (hx : fetchWorks ⟨s, []⟩ e) (hstep : (infiniteQuery svc).step ⟨s, []⟩ e = some l) :
    nextPageParam l.pages = none ∧ IsFirstPage s (communities l.pages) := by
  obtain ⟨env, x⟩ := e
  have hpage : Pageable 10 (listQuery 1) := ⟨0, by rw [paging_listQuery]; rfl⟩
  obtain ⟨page, cache, hserve, ⟨tick, rows, hrows, rfl⟩, -⟩ := serve_getCommunities env hs (.inl hnan) hpage hx
  have hl : l = ⟨⟨s.db, cache⟩, [readBody (.communityPage ⟨rows, s.db.communities.length,
      (paging 50 10 (listQuery 1).page (listQuery 1).limit).page,
      (paging 50 10 (listQuery 1).page (listQuery 1).limit).limit⟩)]⟩ := by
    simp only [infiniteQuery, nextPageParam, List.getLast?_nil, Option.map_some, hserve, if_true,
      List.nil_append, Option.some.injEq] at hstep
    exact hstep.symm
  rw [paging_listQuery] at hrows
  have htake : (newestFirst tick (·.id) (·.createdAt) s.db.communities).take 15 = rows := by
    simpa [pageOf, readBigint, bind, Except.bind, pure, Except.pure] using hrows
  subst hl
  exact ⟨nextPageParam_readBody _, tick, by simp [communities, readBody, htake]⟩

/-- **Every run is at most one fetch long**, and then the list is the first page. -/
theorem run_shape (hnan : svc.parseFloat none = "NaN") (hs : CacheCoherent s) {tr : List (NodeEnv × (ℕ → Tick))}
    {l : ListState} (h : (infiniteQuery svc).Run fetchWorks ⟨s, []⟩ tr l) :
    (tr = [] ∧ l = ⟨s, []⟩) ∨
      (tr.length = 1 ∧ nextPageParam l.pages = none ∧ IsFirstPage s (communities l.pages)) := by
  refine h.history (fun tr l => (tr = [] ∧ l = ⟨s, []⟩) ∨
    (tr.length = 1 ∧ nextPageParam l.pages = none ∧ IsFirstPage s (communities l.pages))) (.inl ⟨rfl, rfl⟩) ?_
  rintro tr l e l' (⟨rfl, rfl⟩ | ⟨-, hend, -⟩) hx hstep
  · exact .inr ⟨rfl, fetch_first hnan hs hx hstep⟩
  · simp [infiniteQuery, hend] at hstep

theorem exists_fetch (svc : Services) (s : ServerState) : ∃ e l, fetchWorks ⟨s, []⟩ e ∧
    (infiniteQuery svc).step ⟨s, []⟩ e = some l :=
  ⟨(⟨0, "", 0⟩, fun _ => {}), _, fun _ => rfl, rfl⟩

theorem length_le_of_complete (hnan : svc.parseFloat none = "NaN") (hs : CacheCoherent s)
    (hdistinct : (s.db.communities.map (·.createdAt)).Nodup) (h : ListComplete svc s) :
    s.db.communities.length ≤ 15 := by
  obtain ⟨e, l, hx, hstep⟩ := exists_fetch svc s
  obtain ⟨hend, tick, hlist⟩ := fetch_first hnan hs hx hstep
  have hsub : s.db.communities ⊆ communities l.pages := by
    intro c hc
    obtain ⟨n, hn, -⟩ := h.2 [e] l (.single hx hstep) hend c hc
    exact List.mem_of_getElem? hn
  calc s.db.communities.length
      ≤ (communities l.pages).length := ((hdistinct.of_map _).subperm hsub).length_le
    _ ≤ 15 := by rw [hlist]; exact List.length_take_le ..

theorem complete_of_length_le (hnan : svc.parseFloat none = "NaN") (hs : CacheCoherent s)
    (hdistinct : (s.db.communities.map (·.createdAt)).Nodup) (hlength : s.db.communities.length ≤ 15) :
    ListComplete svc s := by
  refine ⟨⟨1, fun tr l hrun => ?_⟩, fun tr l hrun hend c hc => ?_⟩
  · obtain ⟨rfl, -⟩ | ⟨hone, -⟩ := run_shape hnan hs hrun
    · exact Nat.zero_le 1
    · exact hone.le
  · obtain ⟨-, rfl⟩ | ⟨-, -, tick, hlist⟩ := run_shape hnan hs hrun
    · cases hend
    have hperm := newestFirst_perm tick (·.id) (·.createdAt) s.db.communities
    have hwhole : communities l.pages = newestFirst tick (·.id) (·.createdAt) s.db.communities := by
      rw [hlist, List.take_of_length_le (hperm.length_eq.trans_le hlength)]
    rw [hwhole]
    obtain ⟨n, hn⟩ := List.mem_iff_getElem?.mp (hperm.mem_iff.mpr hc)
    refine ⟨n, hn, fun m hm => ?_⟩
    obtain ⟨hlt, -⟩ := List.getElem?_eq_some_iff.mp hm
    exact (List.getElem?_inj hlt (hperm.nodup_iff.mpr (hdistinct.of_map _))).mp (hm.trans hn.symm)

/-- **The list is complete exactly when one page holds the table.** -/
theorem list_complete_iff (hnan : svc.parseFloat none = "NaN") (hs : CacheCoherent s)
    (hdistinct : (s.db.communities.map (·.createdAt)).Nodup) :
    ListComplete svc s ↔ s.db.communities.length ≤ 15 :=
  ⟨length_le_of_complete hnan hs hdistinct, complete_of_length_le hnan hs hdistinct⟩

/-- Ana's `n` communities, made one after the other. -/
def communitiesOf (n : ℕ) : ServerState :=
  { db :=
    { users := [{ id := 1, email := "ana@x.org", name := none, passwordHash := none, createdAt := 0,
                  updatedAt := 0 }]
      communities := (List.range n).map fun i =>
        { id := i, name := "Casa", description := none, location := none, ownerId := 1, memberCount := 1,
          createdAt := i } } }

theorem communitiesOf_coherent (n : ℕ) : CacheCoherent (communitiesOf n) := by
  intro e he
  simp [communitiesOf] at he

theorem list_complete_iff_fifteen :
    (ListComplete plainServices (communitiesOf 15) ↔ (communitiesOf 15).db.communities.length ≤ 15) ∧
      (communitiesOf 15).db.communities.length = 15 :=
  ⟨list_complete_iff rfl (communitiesOf_coherent 15) (by decide), rfl⟩

/-- One of sixteen communities is never listed. -/
theorem sixteenth_missing : (communitiesOf 16).db.communities.length = 16 ∧
    ((communitiesOf 16).db.communities.map (·.createdAt)).Nodup ∧
    ¬ ListComplete plainServices (communitiesOf 16) := by
  refine ⟨rfl, by decide, fun h => ?_⟩
  have hlength := length_le_of_complete rfl (communitiesOf_coherent 16) (by decide) h
  exact absurd hlength (by decide)

end Locus.App
