import Locus.Lib.TtlCache
import Locus.Server.Api
import Locus.Server.JsPrinting

/-!
# The cache of `GET /communities`

`server.js` keeps the answers of the list for 60 s in a `Map` under the text
`communities:${lat}:${lng}:${radius}:${page}:${limit}`; the model elsewhere keys it by the five numbers
(`CacheKey`). Here the keys are the texts (`getCommunitiesText`). No number prints a colon, so the text tells
its five numbers apart (`cacheKeyText_injOn`), and the two handlers do the same (`getCommunitiesText_mapKeys`).

While the table answers every query the same, each response is the one that the handler computes without its
cache (`list_cache_transparent`): what is stored under a key is the page of that key (`Holds`), and a page
depends on nothing of the request but its key (`uncached_eval`).
-/

namespace Locus.Server

open Lib (Prog System)
open Lib.TtlCache (get put mapKeys get_forall put_forall get_mapKeys put_mapKeys)

/-! ### The key -/

/-- What `Number.prototype.toString` is to do: tell numbers apart, and print no colon. `print` is for `page` and
`limit`, which are integers, infinities or NaN; `svc.parseFloat` prints `lat`, `lng` and `radius`. -/
structure Prints (svc : Services) (print : JsInt → String) : Prop where
  injective : Function.Injective print
  colon : ∀ v, ':' ∉ (print v).toList
  parseFloat : ∀ text, ':' ∉ (svc.parseFloat text).toList

/-- `communities:${lat}:${lng}:${radius}:${page}:${limit}` -/
def cacheKeyText (print : JsInt → String) (key : CacheKey) : String :=
  "communities:" ++ key.lat ++ ":" ++ key.lng ++ ":" ++ key.radius ++ ":" ++ print key.page ++ ":" ++
    print key.limit

def keyOf (svc : Services) (q : ListQuery) : CacheKey :=
  let ⟨page, limit, _⟩ := paging 50 10 q.page q.limit
  ⟨svc.parseFloat q.lat, svc.parseFloat q.lng, radiusOf svc q, page, limit⟩

theorem serve_cached {svc : Services} {s : ServerState} {q : ListQuery} {env : NodeEnv} {x : ℕ → Tick}
    {cached : Page CommunityRow} (h : (lookupCache env.now (keyOf svc q) s.cache).1 = some cached) :
    serve svc s (.getCommunities q) env x =
      (⟨200, .communityPage cached⟩, ⟨s.db, (lookupCache env.now (keyOf svc q) s.cache).2⟩) := by
  refine serve_of_run ?_
  dsimp only [keyOf] at h ⊢
  dsimp only [ApiRequest.handler, getCommunities]
  rw [getCached_run, h]
  rfl

def CacheKey.Printed (key : CacheKey) : Prop :=
  ':' ∉ key.lat.toList ∧ ':' ∉ key.lng.toList ∧ ':' ∉ key.radius.toList

theorem keyOf_printed {svc : Services} {print : JsInt → String} (h : Prints svc print) (q : ListQuery) :
    (keyOf svc q).Printed := by
  refine ⟨h.parseFloat q.lat, h.parseFloat q.lng, ?_⟩
  change ':' ∉ (radiusOf svc q).toList
  unfold radiusOf
  dsimp only
  split
  · decide
  · exact h.parseFloat q.radius

theorem colon_inj {a a' b b' : List Char} (ha : ':' ∉ a) (ha' : ':' ∉ a')
    (h : a ++ ':' :: b = a' ++ ':' :: b') : a = a' ∧ b = b' := by
  induction a generalizing a' with
  | nil =>
    cases a' with
    | nil => exact ⟨rfl, (List.cons.inj h).2⟩
    | cons c a' => exact absurd ((List.cons.inj h).1 ▸ List.mem_cons_self) ha'
  | cons c a ih =>
    cases a' with
    | nil => exact absurd ((List.cons.inj h).1 ▸ List.mem_cons_self) ha
    | cons c' a' =>
      obtain ⟨hc, hrest⟩ := List.cons.inj h
      obtain ⟨hab, hb⟩ := ih (fun hmem => ha (List.mem_cons_of_mem _ hmem))
        (fun hmem => ha' (List.mem_cons_of_mem _ hmem)) hrest
      exact ⟨by rw [hc, hab], hb⟩

theorem append_toList (head lat lng radius page limit : String) :
    (head ++ lat ++ ":" ++ lng ++ ":" ++ radius ++ ":" ++ page ++ ":" ++ limit).toList =
      head.toList ++ (lat.toList ++ ':' :: (lng.toList ++ ':' :: (radius.toList ++ ':' ::
        (page.toList ++ ':' :: limit.toList)))) := by
  have hcolon : ":".toList = [':'] := rfl
  simp only [String.toList_append, hcolon, List.append_assoc, List.cons_append, List.nil_append]

theorem cacheKeyText_toList (print : JsInt → String) (key : CacheKey) :
    (cacheKeyText print key).toList = "communities:".toList ++ (key.lat.toList ++ ':' :: (key.lng.toList ++ ':' ::
      (key.radius.toList ++ ':' :: ((print key.page).toList ++ ':' :: (print key.limit).toList)))) :=
  append_toList ..

/-- **The text tells the five numbers apart.** -/
theorem cacheKeyText_injOn {svc : Services} {print : JsInt → String} (h : Prints svc print) :
    Set.InjOn (cacheKeyText print) {key | key.Printed} := by
  intro key hkey key' hkey' heq
  have hlist := congrArg String.toList heq
  rw [cacheKeyText_toList, cacheKeyText_toList] at hlist
  obtain ⟨hlat, hlist⟩ := colon_inj hkey.1 hkey'.1 (List.append_cancel_left hlist)
  obtain ⟨hlng, hlist⟩ := colon_inj hkey.2.1 hkey'.2.1 hlist
  obtain ⟨hradius, hlist⟩ := colon_inj hkey.2.2 hkey'.2.2 hlist
  obtain ⟨hpage, hlimit⟩ := colon_inj (h.colon key.page) (h.colon key'.page) hlist
  rw [CacheKey.mk.injEq]
  exact ⟨String.toList_inj.mp hlat, String.toList_inj.mp hlng, String.toList_inj.mp hradius,
    h.injective (String.toList_inj.mp hpage), h.injective (String.toList_inj.mp hlimit)⟩

/-! ### The handler with the text for its key -/

/-- `const cache = new Map()`, keyed by text. -/
abbrev TextCache := List (String × CacheEntry)

abbrev TextHandlerM := ExceptT Thrown (Prog Stmt Answer Thrown TextCache)

/-- `getCached(key)` -/
def getCachedText (now : Time) (key : String) : TextHandlerM (Option (Page CommunityRow)) := do
  let cache ← liftM (Prog.getMem : Prog Stmt Answer Thrown TextCache TextCache)
  let found := get CacheEntry.ts cacheTtl now key cache
  liftM (Prog.setMem found.2 : Prog Stmt Answer Thrown TextCache Unit)
  return found.1.map (·.data)

/-- `setCache(key, data)` -/
def setCacheText (now : Time) (key : String) (data : Page CommunityRow) : TextHandlerM Unit := do
  let cache ← liftM (Prog.getMem : Prog Stmt Answer Thrown TextCache TextCache)
  liftM (Prog.setMem (put key ⟨data, now⟩ cache) : Prog Stmt Answer Thrown TextCache Unit)

/-- `GET /communities`; `now` is the time of `getCached`, `later` that of `setCache`. -/
def getCommunitiesText (svc : Services) (print : JsInt → String) (now later : Time) (q : ListQuery) :
    Prog Stmt Answer Thrown TextCache Response :=
  let lat := svc.parseFloat q.lat
  let lng := svc.parseFloat q.lng
  let radius := radiusOf svc q
  let ⟨page, limit, offset⟩ := paging 50 10 q.page q.limit
  let cacheKey := cacheKeyText print ⟨lat, lng, radius, page, limit⟩
  Prog.tryCatch (do
    match ← getCachedText now cacheKey with
    | some cached => return ⟨200, .communityPage cached⟩
    | none =>
      if lat ≠ "NaN" ∧ lng ≠ "NaN" then
        let total ← Prog.await (.countCommunitiesNearby lat lng radius)
        let data ← Prog.await (.selectCommunitiesNearby lat lng radius limit offset)
        let payload : Page CommunityRow := { data, total, page, limit }
        setCacheText later cacheKey payload
        return ⟨200, .communityPage payload⟩
      else
        let total ← Prog.await .countCommunities
        let data ← Prog.await (.selectCommunities limit offset)
        let payload : Page CommunityRow := { data, total, page, limit }
        setCacheText later cacheKey payload
        return ⟨200, .communityPage payload⟩)
  fun err => .done (failure 500 err.message)

def getCommunitiesUncached (svc : Services) (q : ListQuery) : Prog Stmt Answer Thrown Unit Response :=
  let lat := svc.parseFloat q.lat
  let lng := svc.parseFloat q.lng
  let radius := radiusOf svc q
  let ⟨page, limit, offset⟩ := paging 50 10 q.page q.limit
  Prog.tryCatch (do
    if lat ≠ "NaN" ∧ lng ≠ "NaN" then
      let total ← Prog.await (.countCommunitiesNearby lat lng radius)
      let data ← Prog.await (.selectCommunitiesNearby lat lng radius limit offset)
      return ⟨200, .communityPage { data, total, page, limit }⟩
    else
      let total ← Prog.await .countCommunities
      let data ← Prog.await (.selectCommunities limit offset)
      return ⟨200, .communityPage { data, total, page, limit }⟩)
  fun err => .done (failure 500 err.message)

/-! ### What the handlers do under fixed answers -/

section
variable {svc : Services} {print : JsInt → String} (ans : (q : Stmt) → Except Thrown (Answer q))

/-- The page of a key, or the error of its statements. -/
def pageFor (key : CacheKey) : Except Thrown (Page CommunityRow) :=
  if key.lat ≠ "NaN" ∧ key.lng ≠ "NaN" then do
    let total ← ans (.countCommunitiesNearby key.lat key.lng key.radius)
    let data ← ans (.selectCommunitiesNearby key.lat key.lng key.radius key.limit (key.page.offset key.limit))
    return { data, total, page := key.page, limit := key.limit }
  else do
    let total ← ans .countCommunities
    let data ← ans (.selectCommunities key.limit (key.page.offset key.limit))
    return { data, total, page := key.page, limit := key.limit }

/-- The answer that shows a page, or an error. -/
def pageResponse : Except Thrown (Page CommunityRow) → Response
  | .ok page => ⟨200, .communityPage page⟩
  | .error err => failure 500 err.message

theorem tryCatch_page {M : Type} (q₁ q₂ : Stmt) (page : Answer q₁ → Answer q₂ → Page CommunityRow)
    (f : Page CommunityRow → ExceptT Thrown (Prog Stmt Answer Thrown M) Response) (m : M) :
    (Prog.tryCatch (Prog.await q₁ >>= fun a => Prog.await q₂ >>= fun b => f (page a b))
        (fun err : Thrown => Prog.done (failure 500 err.message))).eval ans m =
      match ans q₁ >>= fun a => ans q₂ >>= fun b => pure (page a b) with
      | .ok p => (Prog.tryCatch (f p) fun err : Thrown => Prog.done (failure 500 err.message)).eval ans m
      | .error err => (failure 500 err.message, m) := by
  rw [Prog.tryCatch_await_eval]
  cases ans q₁ with
  | error err => rfl
  | ok a =>
    dsimp only
    rw [Prog.tryCatch_await_eval]
    cases hb : ans q₂ with
    | error err => simp [bind, Except.bind, Prog.eval]
    | ok b => simp [bind, Except.bind, pure, Except.pure]

theorem tryCatch_list {M : Type} (q : ListQuery)
    (f : Page CommunityRow → ExceptT Thrown (Prog Stmt Answer Thrown M) Response) (m : M) :
    (Prog.tryCatch (
        if svc.parseFloat q.lat ≠ "NaN" ∧ svc.parseFloat q.lng ≠ "NaN" then
          Prog.await (.countCommunitiesNearby (svc.parseFloat q.lat) (svc.parseFloat q.lng) (radiusOf svc q)) >>=
            fun total => Prog.await (.selectCommunitiesNearby (svc.parseFloat q.lat) (svc.parseFloat q.lng)
              (radiusOf svc q) (paging 50 10 q.page q.limit).limit (paging 50 10 q.page q.limit).offset) >>=
            fun data => f ⟨data, total, (paging 50 10 q.page q.limit).page, (paging 50 10 q.page q.limit).limit⟩
        else
          Prog.await .countCommunities >>= fun total => Prog.await (.selectCommunities
              (paging 50 10 q.page q.limit).limit (paging 50 10 q.page q.limit).offset) >>=
            fun data => f ⟨data, total, (paging 50 10 q.page q.limit).page, (paging 50 10 q.page q.limit).limit⟩)
        (fun err : Thrown => Prog.done (failure 500 err.message))).eval ans m =
      match pageFor ans (keyOf svc q) with
      | .ok p => (Prog.tryCatch (f p) fun err : Thrown => Prog.done (failure 500 err.message)).eval ans m
      | .error err => (failure 500 err.message, m) := by
  by_cases hpoint : svc.parseFloat q.lat ≠ "NaN" ∧ svc.parseFloat q.lng ≠ "NaN"
  · have hkey : (keyOf svc q).lat ≠ "NaN" ∧ (keyOf svc q).lng ≠ "NaN" := hpoint
    rw [if_pos hpoint, pageFor, if_pos hkey]
    exact tryCatch_page ans (.countCommunitiesNearby ..) (.selectCommunitiesNearby ..)
      (fun total data => ⟨data, total, _, _⟩) f m
  · have hkey : ¬((keyOf svc q).lat ≠ "NaN" ∧ (keyOf svc q).lng ≠ "NaN") := hpoint
    rw [if_neg hpoint, pageFor, if_neg hkey]
    exact tryCatch_page ans .countCommunities (.selectCommunities ..)
      (fun total data => ⟨data, total, _, _⟩) f m

theorem uncached_eval (q : ListQuery) :
    ((getCommunitiesUncached svc q).eval ans ()).1 = pageResponse (pageFor ans (keyOf svc q)) := by
  unfold getCommunitiesUncached
  dsimp only
  rw [tryCatch_list ans q fun p => pure (⟨200, .communityPage p⟩ : Response)]
  cases pageFor ans (keyOf svc q) with
  | ok p => rfl
  | error err => rfl

/-! ### The two handlers with a cache -/

/-- What either handler does: the page of the cache, or that of the table, which is put under the key `k`. -/
def cachedEval {K : Type} [DecidableEq K] (now later : Time) (key : CacheKey) (k : K)
    (cache : List (K × CacheEntry)) : Response × List (K × CacheEntry) :=
  match get CacheEntry.ts cacheTtl now k cache with
  | (some entry, cache) => (⟨200, .communityPage entry.data⟩, cache)
  | (none, cache) =>
    match pageFor ans key with
    | .ok page => (⟨200, .communityPage page⟩, put k ⟨page, later⟩ cache)
    | .error err => (failure 500 err.message, cache)

theorem getCachedText_eval {now : Time} {k : String} (f : Option (Page CommunityRow) → TextHandlerM Response)
    (handler : Thrown → Prog Stmt Answer Thrown TextCache Response) (cache : TextCache) :
    (Prog.tryCatch (getCachedText now k >>= f) handler).eval ans cache =
      (Prog.tryCatch (f ((get CacheEntry.ts cacheTtl now k cache).1.map (·.data))) handler).eval ans
        (get CacheEntry.ts cacheTtl now k cache).2 := rfl

theorem getCommunitiesText_eval (now later : Time) (q : ListQuery) (cache : TextCache) :
    (getCommunitiesText svc print now later q).eval ans cache =
      cachedEval ans now later (keyOf svc q) (cacheKeyText print (keyOf svc q)) cache := by
  unfold getCommunitiesText cachedEval
  dsimp only
  refine (getCachedText_eval ans (k := cacheKeyText print (keyOf svc q)) _ _ cache).trans ?_
  cases get CacheEntry.ts cacheTtl now (cacheKeyText print (keyOf svc q)) cache with
  | mk entry rest =>
    cases entry with
    | some entry => rfl
    | none =>
      refine (tryCatch_list ans q (fun p => setCacheText later (cacheKeyText print (keyOf svc q)) p >>= fun _ =>
        pure (⟨200, .communityPage p⟩ : Response)) rest).trans ?_
      dsimp only
      cases pageFor ans (keyOf svc q) with
      | ok p => rfl
      | error err => rfl

theorem getCommunities_eval (env : NodeEnv) (q : ListQuery) (cache : Cache) :
    (getCommunities svc env q).eval ans cache =
      cachedEval ans env.now env.now (keyOf svc q) (keyOf svc q) cache := by
  have hcached : ∀ f : Option (Page CommunityRow) → HandlerM Response,
      (catch500 (getCached env.now (keyOf svc q) >>= f)).eval ans cache =
        (catch500 (f (lookupCache env.now (keyOf svc q) cache).1)).eval ans
          (lookupCache env.now (keyOf svc q) cache).2 := fun f => rfl
  unfold getCommunities cachedEval
  dsimp only
  refine (hcached _).trans ?_
  rw [lookupCache_eq]
  cases get CacheEntry.ts cacheTtl env.now (keyOf svc q) cache with
  | mk entry rest =>
    cases entry with
    | some entry => rfl
    | none =>
      refine (tryCatch_list ans q (fun p => setCache env.now (keyOf svc q) p >>= fun _ =>
        pure (⟨200, .communityPage p⟩ : Response)) rest).trans ?_
      dsimp only
      cases pageFor ans (keyOf svc q) with
      | ok p => rfl
      | error err => rfl

/-- **The texts do what the keys do.** -/
theorem getCommunitiesText_mapKeys (h : Prints svc print) (env : NodeEnv) (q : ListQuery) {cache : Cache}
    (hcache : ∀ e ∈ cache, e.1.Printed) :
    (getCommunitiesText svc print env.now env.now q).eval ans (mapKeys (cacheKeyText print) cache) =
      Prod.map id (mapKeys (cacheKeyText print)) ((getCommunities svc env q).eval ans cache) := by
  have hinj := cacheKeyText_injOn h
  have hrest : ∀ e ∈ (get CacheEntry.ts cacheTtl env.now (keyOf svc q) cache).2, e.1.Printed :=
    (get_forall CacheEntry.ts cacheTtl env.now (keyOf svc q) hcache).1
  rw [getCommunitiesText_eval, getCommunities_eval, cachedEval, cachedEval,
    get_mapKeys hinj (keyOf_printed h q) hcache]
  cases hfound : get CacheEntry.ts cacheTtl env.now (keyOf svc q) cache with
  | mk entry rest =>
    rw [hfound] at hrest
    cases entry with
    | some entry => rfl
    | none =>
      cases pageFor ans (keyOf svc q) with
      | error err => rfl
      | ok page =>
        dsimp only
        rw [put_mapKeys hinj (keyOf_printed h q) hrest]
        rfl

/-- Under each key the cache has the page of that key. -/
def Holds (svc : Services) (print : JsInt → String) (cache : TextCache) : Prop :=
  ∀ e ∈ cache, ∃ q, e.1 = cacheKeyText print (keyOf svc q) ∧ pageFor ans (keyOf svc q) = .ok e.2.data

/-- A request shows the page of its key, and leaves a cache that holds such pages. -/
theorem cachedEval_holds (h : Prints svc print) (now later : Time) (q : ListQuery) {cache : TextCache}
    (hcache : Holds ans svc print cache) :
    (cachedEval ans now later (keyOf svc q) (cacheKeyText print (keyOf svc q)) cache).1 =
        pageResponse (pageFor ans (keyOf svc q)) ∧
      Holds ans svc print (cachedEval ans now later (keyOf svc q) (cacheKeyText print (keyOf svc q)) cache).2 := by
  obtain ⟨hrest, hentry⟩ := get_forall CacheEntry.ts cacheTtl now (cacheKeyText print (keyOf svc q)) hcache
  unfold cachedEval
  cases hfound : get CacheEntry.ts cacheTtl now (cacheKeyText print (keyOf svc q)) cache with
  | mk entry rest =>
    rw [hfound] at hrest
    cases entry with
    | some entry =>
      obtain ⟨q', hkey, hpage⟩ := hentry entry (congrArg Prod.fst hfound)
      have hsame : keyOf svc q = keyOf svc q' :=
        cacheKeyText_injOn h (keyOf_printed h q) (keyOf_printed h q') hkey
      rw [hsame, hpage]
      exact ⟨rfl, hrest⟩
    | none =>
      cases hpage : pageFor ans (keyOf svc q) with
      | error err => exact ⟨rfl, hrest⟩
      | ok page => exact ⟨rfl, put_forall hrest ⟨q, rfl, hpage⟩⟩

end

/-! ### Sequences of requests -/

structure ListServer where
  db : Db
  cache : TextCache := []

/-- A request for the list: its query string, the clock, and PostgreSQL's surroundings. -/
structure ListRequest where
  query : ListQuery
  now : Time
  later : Time
  tick : ℕ → Tick

section
variable (svc : Services) (print : JsInt → String)

def ListServer.respond (s : ListServer) (r : ListRequest) : Response × ListServer :=
  let out := (getCommunitiesText svc print r.now r.later r.query).run (exec svc) r.tick s.db s.cache
  (out.1, ⟨out.2.1, out.2.2⟩)

/-- Requests for the list, one after the other, to a server whose cache is empty. -/
def listServer : System ListServer ListRequest where
  Init s := s.cache = []
  step s r := some (s.respond svc print r).2

/-- The statements of the request are answered by `ans`. -/
def AnsweredBy (ans : (q : Stmt) → Except Thrown (Answer q)) (s : ListServer) (r : ListRequest) : Prop :=
  ∀ call ∈ (getCommunitiesText svc print r.now r.later r.query).trace (exec svc) r.tick s.db s.cache,
    call.answer = ans call.query

end

section
variable {svc : Services} {print : JsInt → String} {ans : (q : Stmt) → Except Thrown (Answer q)}

theorem respond_eval {s : ListServer} {r : ListRequest} (h : AnsweredBy svc print ans s r) :
    ((s.respond svc print r).1, (s.respond svc print r).2.cache) =
      cachedEval ans r.now r.later (keyOf svc r.query) (cacheKeyText print (keyOf svc r.query)) s.cache := by
  rw [← getCommunitiesText_eval]
  exact Prog.run_eq_eval h

theorem reachable_holds (h : Prints svc print) {s : ListServer}
    (hs : (listServer svc print).Reachable (AnsweredBy svc print ans) s) : Holds ans svc print s.cache := by
  refine hs.invariant (fun s => Holds ans svc print s.cache) (fun s hinit => ?_) fun s r s' hholds hans hstep => ?_
  · have hempty : s.cache = [] := hinit
    rw [hempty]
    exact fun e he => absurd he List.not_mem_nil
  · obtain rfl : (s.respond svc print r).2 = s' := Option.some.inj hstep
    have heval := congrArg Prod.snd (respond_eval hans)
    dsimp only at heval
    rw [heval]
    exact (cachedEval_holds ans h r.now r.later r.query hholds).2

/-- **The cache is transparent**: in every sequence of requests that the table answers as `ans` says, each
response is the one without the cache, and requests with the same key are answered alike without it. -/
theorem list_cache_transparent (h : Prints svc print) :
    (∀ s r, (listServer svc print).Reachable (AnsweredBy svc print ans) s → AnsweredBy svc print ans s r →
      (s.respond svc print r).1 = ((getCommunitiesUncached svc r.query).eval ans ()).1) ∧
    ∀ q q', cacheKeyText print (keyOf svc q) = cacheKeyText print (keyOf svc q') →
      ((getCommunitiesUncached svc q).eval ans ()).1 = ((getCommunitiesUncached svc q').eval ans ()).1 := by
  constructor
  · intro s r hs hans
    have heval := congrArg Prod.fst (respond_eval hans)
    dsimp only at heval
    rw [heval, uncached_eval]
    exact (cachedEval_holds ans h r.now r.later r.query (reachable_holds h hs)).1
  · intro q q' hkey
    have hsame : keyOf svc q = keyOf svc q' :=
      cacheKeyText_injOn h (keyOf_printed h q) (keyOf_printed h q') hkey
    rw [uncached_eval, uncached_eval, hsame]

end

/-! ### A table that does not change -/

/-- The answers of a table, rows with one `created_at` in the given order. -/
def tableAnswers (svc : Services) (db : Db) (order : Uuid → ℕ) (q : Stmt) : Except Thrown (Answer q) :=
  (exec svc { tieBreak := order } db q).1

def Stmt.isList : Stmt → Bool
  | .countCommunities | .selectCommunities .. | .countCommunitiesNearby .. | .selectCommunitiesNearby .. => true
  | _ => false

theorem exec_isList_db (svc : Services) (tick : Tick) (db : Db) {q : Stmt} (hq : q.isList = true) :
    (exec svc tick db q).2 = db := by
  have hread : isWrite q = false := by cases q <;> first | rfl | cases hq
  exact exec_read svc tick db hread

theorem exec_isList (svc : Services) (db : Db) {order : Uuid → ℕ} {tick : Tick} (htick : tick.tieBreak = order)
    (hfault : tick.fault = none) {q : Stmt} (hq : q.isList = true) :
    exec svc tick db q = (tableAnswers svc db order q, db) := by
  refine Prod.ext ?_ (exec_isList_db svc tick db hq)
  obtain ⟨now, uuid, tieBreak, fault⟩ := tick
  obtain rfl : tieBreak = order := htick
  obtain rfl : fault = none := hfault
  cases q with
  | countCommunities | selectCommunities | countCommunitiesNearby | selectCommunitiesNearby => rfl
  | _ => cases hq

theorem getCommunitiesText_sends (svc : Services) (print : JsInt → String) (now later : Time) (q : ListQuery) :
    (getCommunitiesText svc print now later q).Sends fun q => q.isList = true := by
  let handler : Thrown → Prog Stmt Answer Thrown TextCache Response := fun err => .done (failure 500 err.message)
  have hcached : ∀ (k : String) (f : Option (Page CommunityRow) → TextHandlerM Response),
      (∀ r, (Prog.tryCatch (f r) handler).Sends fun q => q.isList = true) →
      (Prog.tryCatch (getCachedText now k >>= f) handler).Sends fun q => q.isList = true := fun _ _ h _ => h _
  refine hcached _ _ fun cached => ?_
  cases cached with
  | some page => trivial
  | none =>
    dsimp only
    split
    · exact Prog.tryCatch_sends rfl (fun _ => Prog.tryCatch_sends rfl (fun _ _ => trivial) fun _ => trivial)
        fun _ => trivial
    · exact Prog.tryCatch_sends rfl (fun _ => Prog.tryCatch_sends rfl (fun _ _ => trivial) fun _ => trivial)
        fun _ => trivial

/-- Without faults and with ties in a fixed order, a table answers every request by `tableAnswers`. -/
theorem answeredBy_table {svc : Services} {print : JsInt → String} {s : ListServer} {r : ListRequest}
    {order : Uuid → ℕ} (hr : ∀ n, (r.tick n).tieBreak = order ∧ (r.tick n).fault = none) :
    AnsweredBy svc print (tableAnswers svc s.db order) s r :=
  (getCommunitiesText_sends svc print r.now r.later r.query).trace_eq fun n _ hq =>
    exec_isList svc s.db (hr n).1 (hr n).2 hq

theorem respond_db {svc : Services} {print : JsInt → String} (s : ListServer) (r : ListRequest) :
    (s.respond svc print r).2.db = s.db := by
  refine (getCommunitiesText_sends svc print r.now r.later r.query).run (I := fun db => db = s.db) ?_ rfl
  rintro tick _ q hq rfl
  exact exec_isList_db svc tick _ hq

/-! ### An instance -/

/-- How JavaScript prints an integer below `10 ^ 21`. -/
def printInt : JsInt → String
  | .nan => "NaN"
  | .inf => "Infinity"
  | .negInf => "-Infinity"
  | .int n => n.repr

theorem repr_int_cases (n : ℤ) : (0 ≤ n ∧ n.repr.toList = n.toNat.repr.toList) ∨
    (n < 0 ∧ n.repr.toList = '-' :: (-n).toNat.repr.toList) := by
  rw [Int.repr_eq_if]
  by_cases hn : 0 ≤ n
  · rw [if_pos hn]
    exact .inl ⟨hn, rfl⟩
  · rw [if_neg hn, String.toList_append]
    exact .inr ⟨by omega, rfl⟩

theorem repr_int_mem (n : ℤ) {c : Char} (hc : c ∈ n.repr.toList) : c = '-' ∨ c.isDigit = true := by
  obtain ⟨-, hn⟩ | ⟨-, hn⟩ := repr_int_cases n
  · rw [hn] at hc
    exact .inr (repr_digits _ c hc)
  · rw [hn] at hc
    exact (List.mem_cons.mp hc).imp id (repr_digits _ c)

theorem repr_int_injective : Function.Injective Int.repr := by
  intro n m h
  -- a sign is no digit
  have hsign : ∀ k l : ℕ, k.repr.toList ≠ '-' :: l.repr.toList := by
    intro k l hkl
    have hminus := repr_digits k '-' (hkl ▸ List.mem_cons_self)
    exact absurd hminus (by decide)
  have hlist := congrArg String.toList h
  obtain ⟨hn, hn'⟩ | ⟨hn, hn'⟩ := repr_int_cases n <;> obtain ⟨hm, hm'⟩ | ⟨hm, hm'⟩ := repr_int_cases m <;>
    rw [hn', hm'] at hlist
  · have hnat := repr_nat_injective (String.toList_inj.mp hlist)
    omega
  · exact absurd hlist (hsign _ _)
  · exact absurd hlist.symm (hsign _ _)
  · have hnat := repr_nat_injective (String.toList_inj.mp (List.cons.inj hlist).2)
    omega

theorem printInt_injective : Function.Injective printInt := by
  have hword : ∀ (n : ℤ) (c : Char) (word : String), c ∈ word.toList → c ≠ '-' → c.isDigit = false →
      n.repr ≠ word := by
    rintro n c word hc hsign hdigit rfl
    rcases repr_int_mem n hc with h | h
    · exact hsign h
    · exact absurd h (by simp [hdigit])
  intro v w h
  cases v with
  | int n =>
    cases w with
    | int m => exact congrArg JsInt.int (repr_int_injective h)
    | nan => exact absurd h (hword n 'N' "NaN" (by decide) (by decide) (by decide))
    | inf => exact absurd h (hword n 'I' "Infinity" (by decide) (by decide) (by decide))
    | negInf => exact absurd h (hword n 'I' "-Infinity" (by decide) (by decide) (by decide))
  | nan =>
    cases w with
    | int m => exact absurd h.symm (hword m 'N' "NaN" (by decide) (by decide) (by decide))
    | nan => rfl
    | _ => exact absurd h (by decide)
  | inf =>
    cases w with
    | int m => exact absurd h.symm (hword m 'I' "Infinity" (by decide) (by decide) (by decide))
    | inf => rfl
    | _ => exact absurd h (by decide)
  | negInf =>
    cases w with
    | int m => exact absurd h.symm (hword m 'I' "-Infinity" (by decide) (by decide) (by decide))
    | negInf => rfl
    | _ => exact absurd h (by decide)

theorem readDigits_none (digits : List Char) :
    digits.foldl (fun n c => n.bind fun n => if c.isDigit then some (10 * n + (c.toNat - 48)) else none)
      (none : Option ℕ) = none := by
  induction digits with
  | nil => rfl
  | cons c digits ih => exact ih

theorem readDigits_some {n m : ℕ} {digits : List Char} (h : readDigits n digits = some m) :
    ∀ c ∈ digits, c.isDigit = true := by
  induction digits generalizing n with
  | nil => exact fun c hc => absurd hc List.not_mem_nil
  | cons d digits ih =>
    unfold readDigits at h
    rw [List.foldl_cons, Option.bind_some] at h
    intro c hc
    by_cases hd : d.isDigit = true
    · rw [if_pos hd] at h
      rcases List.mem_cons.mp hc with rfl | hc
      · exact hd
      · exact ih h c hc
    · rw [if_neg hd, readDigits_none] at h
      cases h

theorem readDigits_point {n m : ℕ} {digits : List Char}
    (hwhole : readDigits 0 (digits.takeWhile (· ≠ '.')) = some n)
    (hfraction : readDigits n (digits.dropWhile (· ≠ '.')).tail = some m) : ':' ∉ digits := by
  intro hmem
  have hcolon : ':'.isDigit = false := by decide
  rw [← List.takeWhile_append_dropWhile (p := (· ≠ '.')) (l := digits)] at hmem
  rcases List.mem_append.mp hmem with h | h
  · simp [readDigits_some hwhole _ h] at hcolon
  · cases hdrop : digits.dropWhile (· ≠ '.') with
    | nil =>
      rw [hdrop] at h
      cases h
    | cons c rest =>
      have hpoint : c = '.' := by
        have hne : digits.dropWhile (· ≠ '.') ≠ [] := by
          rw [hdrop]
          exact List.cons_ne_nil _ _
        have hhead := List.head_dropWhile_not (· ≠ '.') hne
        simp only [hdrop, List.head_cons] at hhead
        simpa using hhead
      rw [hdrop] at h hfraction
      rcases List.mem_cons.mp h with h | h
      · exact absurd (h.trans hpoint) (by decide)
      · simp [readDigits_some hfraction _ h] at hcolon

theorem readDecimal_colon {text : String} (h : (readDecimal text).isSome = true) : ':' ∉ text.toList := by
  have hread : ∀ (sign : ℤ) (digits : List Char),
      (if digits.takeWhile (· ≠ '.') = [] then none else do
        let n ← readDigits 0 (digits.takeWhile (· ≠ '.'))
        let m ← readDigits n (digits.dropWhile (· ≠ '.')).tail
        return ((sign * m : ℤ) / (10 ^ (digits.dropWhile (· ≠ '.')).tail.length : ℕ) : ℚ)).isSome = true →
      ':' ∉ digits := by
    intro sign digits hsome
    split at hsome
    · cases hsome
    · obtain ⟨x, hx⟩ := Option.isSome_iff_exists.mp hsome
      obtain ⟨n, hn, hx⟩ := Option.bind_eq_some_iff.mp hx
      obtain ⟨m, hm, -⟩ := Option.bind_eq_some_iff.mp hx
      exact readDigits_point hn hm
  unfold readDecimal at h
  generalize text.toList = all at h ⊢
  split at h
  rename_i sign digits hsplit
  have hdigits := hread sign digits h
  split at hsplit
  · cases hsplit
    exact fun hmem => (List.mem_cons.mp hmem).elim (by decide) hdigits
  · cases hsplit
    exact hdigits

theorem plain_prints : Prints plainServices printInt where
  injective := printInt_injective
  colon v := by
    cases v with
    | int n =>
      intro hc
      rcases repr_int_mem n hc with h | h
      · exact absurd h (by decide)
      · exact absurd h (by decide)
    | _ => decide
  parseFloat text := by
    cases text with
    | none => decide
    | some text =>
      change ':' ∉ (if (readDecimal text).isSome then text else "NaN").toList
      split
      · rename_i h
        exact readDecimal_colon h
      · decide

def casa : Db :=
  { communities := [{ id := 1, name := "Casa", description := none, location := none, ownerId := 1,
                      memberCount := 1, createdAt := 0 }] }

/-- `GET /communities` at a time. -/
def listAt (now : Time) : ListRequest := ⟨{}, now, now, fun _ => {}⟩

/-- The second of two requests is answered from the cache, as it would be without one. -/
theorem list_cache_transparent_twice :
    (((⟨casa, []⟩ : ListServer).respond plainServices printInt (listAt 0)).2.respond plainServices printInt
      (listAt 30000)).1 =
      ((getCommunitiesUncached plainServices {}).eval (tableAnswers plainServices casa fun _ => 0) ()).1 := by
  have hanswered : ∀ (s : ListServer) (now : Time), s.db = casa →
      AnsweredBy plainServices printInt (tableAnswers plainServices casa fun _ => 0) s (listAt now) := by
    intro s now hs
    rw [← hs]
    exact answeredBy_table fun _ => ⟨rfl, rfl⟩
  have hfirst := hanswered ⟨casa, []⟩ 0 rfl
  have hsecond := hanswered ((⟨casa, []⟩ : ListServer).respond plainServices printInt (listAt 0)).2 30000
    (respond_db ..)
  have hreach : (listServer plainServices printInt).Reachable
      (AnsweredBy plainServices printInt (tableAnswers plainServices casa fun _ => 0))
      ((⟨casa, []⟩ : ListServer).respond plainServices printInt (listAt 0)).2 :=
    ⟨⟨casa, []⟩, [listAt 0], rfl, .single hfirst rfl⟩
  exact (list_cache_transparent plain_prints).1 _ (listAt 30000) hreach hsecond

end Locus.Server
