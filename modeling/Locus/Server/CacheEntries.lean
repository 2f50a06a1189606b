import Locus.Server.ListCache

/-!
# What stays in the cache of `GET /communities`

`getCached` deletes an entry that has expired when its own key is asked for again, and nothing else deletes one.
So whatever the interleaving of the requests and whatever the database does, a request leaves no expired entry under
its key, the `Map` has one entry a key at most and no more entries than keys that were asked for
(`cache_per_key`); but the entry of a page that nobody asks for again stays (`first_page_stays`).
-/

namespace Locus.Server

open Lib (Pool PoolEvent Prog System)
open Lib.TtlCache (get put Keyed mem_get_of_ne mem_put_of_ne eq_of_mem_put get_subset mem_put)

/-! ### Requests that overlap -/

/-- A request: its query string, and the clock at its `getCached` and at its `setCache`. -/
structure TimedQuery where
  query : ListQuery
  now : Time
  later : Time

variable {ι X DB : Type} (svc : Services) (print : JsInt → String) (req : ι → TimedQuery)
  (out : Prog.Outside X DB Stmt Answer Thrown)

/-- `cacheKey` of the request. -/
def TimedQuery.key (r : TimedQuery) : String := cacheKeyText print (keyOf svc r.query)

def TimedQuery.handler (r : TimedQuery) : Prog Stmt Answer Thrown TextCache Response :=
  getCommunitiesText svc print r.now r.later r.query

/-- Requests for the list on one server process, whose cache is empty at first. -/
def listPool [DecidableEq ι] : System (Pool ι DB Stmt Answer Thrown TextCache Response) (PoolEvent ι X) :=
  Pool.system (fun i => (req i).handler svc print) out fun _ cache => cache = []

def request : PoolEvent ι X → ι
  | .start i | .answer i _ => i

/-- When the step looked the key of its request up, or stored the response under it. -/
def accessTime (s : Pool ι DB Stmt Answer Thrown TextCache Response) : PoolEvent ι X → Option Time
  | .start i => some (req i).now
  | .answer i _ => match (s.thread i).result with
    | some r => if r.status = 200 then some (req i).later else none
    | none => none

variable {req} in
theorem accessTime_answer {s : Pool ι DB Stmt Answer Thrown TextCache Response} {i : ι} {x : X} {t : Time}
    (h : accessTime req s (.answer i x) = some t) : t = (req i).later := by
  simp only [accessTime] at h
  split at h
  · split at h
    · exact (Option.some.inj h).symm
    · cases h
  · cases h

/-! ### What a request does to the cache -/

/-- Between two statements a request does nothing to the cache, or stores the response that it sends. -/
def Stores (k : String) (later : Time) (p : Prog Stmt Answer Thrown TextCache Response) : Prop :=
  ∀ m, ((p.settle m).1 = m ∧ ∀ r, (p.settle m).2 = .done r → r.status ≠ 200) ∨
    ∃ page, (p.settle m).1 = put k ⟨page, later⟩ m

theorem getCachedText_settle (now : Time) (k : String) (f : Option (Page CommunityRow) → TextHandlerM Response)
    (handler : Thrown → Prog Stmt Answer Thrown TextCache Response) (m : TextCache) :
    (Prog.tryCatch (getCachedText now k >>= f) handler).settle m =
      (Prog.tryCatch (f ((get CacheEntry.ts cacheTtl now k m).1.map (·.data))) handler).settle
        (get CacheEntry.ts cacheTtl now k m).2 := rfl

theorem getCommunitiesText_settle (now later : Time) (q : ListQuery) (m : TextCache) :
    ((getCommunitiesText svc print now later q).settle m).1 =
      (get CacheEntry.ts cacheTtl now (cacheKeyText print (keyOf svc q)) m).2 := by
  unfold getCommunitiesText
  dsimp only
  refine (congrArg Prod.fst (getCachedText_settle now (cacheKeyText print (keyOf svc q)) _ _ m)).trans ?_
  cases (get CacheEntry.ts cacheTtl now (cacheKeyText print (keyOf svc q)) m).1 with
  | some entry => rfl
  | none =>
    dsimp only [Option.map_none]
    split
    · rfl
    · rfl

theorem page_stores (q₁ q₂ : Stmt) (page : Answer q₁ → Answer q₂ → Page CommunityRow) (k : String) (later : Time) :
    (Prog.tryCatch (Prog.await q₁ >>= fun a => Prog.await q₂ >>= fun b =>
        setCacheText later k (page a b) >>= fun _ => pure (⟨200, .communityPage (page a b)⟩ : Response))
      fun err : Thrown => .done (failure 500 err.message)).Points (Stores k later) := by
  have hfailed : ∀ err : Thrown, Stores k later (.done (failure 500 err.message)) := by
    intro err m
    refine .inl ⟨rfl, ?_⟩
    rintro r ⟨⟩ h200
    cases h200
  refine Prog.tryCatch_points (fun a => ⟨fun m => .inl ⟨rfl, ?_⟩, ?_⟩) fun err => ⟨hfailed err, trivial⟩
  · rintro r ⟨⟩
  · refine Prog.tryCatch_points (fun b => ⟨fun m => .inr ⟨page a b, rfl⟩, fun _ => trivial⟩) fun err => ?_
    exact ⟨hfailed err, trivial⟩

theorem getCommunitiesText_stores (now later : Time) (q : ListQuery) :
    (getCommunitiesText svc print now later q).Points (Stores (cacheKeyText print (keyOf svc q)) later) := by
  let handler : Thrown → Prog Stmt Answer Thrown TextCache Response := fun err => .done (failure 500 err.message)
  let S := Stores (cacheKeyText print (keyOf svc q)) later
  have hcached : ∀ (k : String) (f : Option (Page CommunityRow) → TextHandlerM Response),
      (∀ r, (Prog.tryCatch (f r) handler).Points S) → (Prog.tryCatch (getCachedText now k >>= f) handler).Points S :=
    fun _ _ h _ => h _
  refine hcached _ _ fun cached => ?_
  cases cached with
  | some page => trivial
  | none =>
    dsimp only
    split
    · exact page_stores (.countCommunitiesNearby ..) (.selectCommunitiesNearby ..)
        (fun total data => ⟨data, total, _, _⟩) _ later
    · exact page_stores .countCommunities (.selectCommunities ..) (fun total data => ⟨data, total, _, _⟩) _ later

/-! ### What stays -/

section
variable [DecidableEq ι] {svc print req out} {s s' : Pool ι DB Stmt Answer Thrown TextCache Response}
  {e : PoolEvent ι X}

theorem listPool_step (hpath : Pool.OnPath (fun i => (req i).handler svc print) s)
    (hstep : (listPool svc print req out).step s e = some s') :
    (∃ i, e = .start i ∧ s'.mem = (get CacheEntry.ts cacheTtl (req i).now ((req i).key svc print) s.mem).2) ∨
    (s'.mem = s.mem ∧ accessTime req s' e = none) ∨
    ∃ i x page, e = .answer i x ∧ s'.mem = put ((req i).key svc print) ⟨page, (req i).later⟩ s.mem := by
  obtain ⟨i, rfl, -, rfl⟩ | ⟨i, x, q, k, log, rfl, hi, rfl⟩ := Pool.step_cases hstep
  · exact .inl ⟨i, rfl, getCommunitiesText_settle svc print (req i).now (req i).later (req i).query s.mem⟩
  · have hpoint := ((hpath i _ _ hi).1.always
      (getCommunitiesText_stores svc print (req i).now (req i).later (req i).query)).1 (out x s.db q).1 s.mem
    rcases hpoint with ⟨hmem, hdone⟩ | ⟨page, hmem⟩
    · refine .inr (.inl ⟨hmem, ?_⟩)
      simp only [accessTime]
      split
      · rename_i r hr
        obtain ⟨log', hlog'⟩ := Lib.Thread.result_eq_some.mp hr
        rw [Pool.goto_self] at hlog'
        rw [if_neg (hdone r (Lib.Thread.live.inj hlog').1)]
      · rfl
    · exact .inr (.inr ⟨i, x, page, rfl, hmem⟩)

theorem started_step (hstep : (listPool svc print req out).step s e = some s') :
    s'.thread (request e) ≠ .idle ∧ ∀ i, s.thread i ≠ .idle → s'.thread i ≠ .idle := by
  have hgoto : ∀ i d p log, (s.goto i d p log).thread i ≠ .idle ∧
      ∀ j, s.thread j ≠ .idle → (s.goto i d p log).thread j ≠ .idle := by
    intro i d p log
    have hself : (s.goto i d p log).thread i ≠ .idle := by
      rw [Pool.goto_self]
      rintro ⟨⟩
    refine ⟨hself, fun j hj => ?_⟩
    by_cases hji : j = i
    · exact hji ▸ hself
    · rwa [Pool.goto_other s hji]
  obtain ⟨i, rfl, -, rfl⟩ | ⟨i, x, q, k, log, rfl, hi, rfl⟩ := Pool.step_cases hstep
  · exact hgoto i _ _ _
  · exact hgoto i _ _ _

/-- The keys of the cache are distinct, and each was asked for. -/
structure Asked (svc : Services) (print : JsInt → String) (req : ι → TimedQuery)
    (s : Pool ι DB Stmt Answer Thrown TextCache Response) : Prop where
  keyed : Keyed s.mem
  asked : ∀ x ∈ s.mem, ∃ i, s.thread i ≠ .idle ∧ x.1 = (req i).key svc print

theorem asked_step (hpath : Pool.OnPath (fun i => (req i).handler svc print) s) (hs : Asked svc print req s)
    (hstep : (listPool svc print req out).step s e = some s') : Asked svc print req s' := by
  obtain ⟨hself, hstays⟩ := started_step hstep
  have hold : ∀ x ∈ s.mem, ∃ i, s'.thread i ≠ .idle ∧ x.1 = (req i).key svc print := by
    intro x hx
    obtain ⟨i, hi, hkey⟩ := hs.asked x hx
    exact ⟨i, hstays i hi, hkey⟩
  obtain ⟨i, rfl, hmem⟩ | ⟨hmem, -⟩ | ⟨i, x, page, rfl, hmem⟩ := listPool_step hpath hstep
  · refine ⟨hmem ▸ hs.keyed.get, fun x hx => ?_⟩
    rw [hmem] at hx
    exact hold x (get_subset x hx)
  · exact ⟨hmem ▸ hs.keyed, hmem ▸ hold⟩
  · refine ⟨hmem ▸ hs.keyed.put _, fun y hy => ?_⟩
    rw [hmem] at hy
    rcases mem_put hy with rfl | hy
    · exact ⟨i, hself, rfl⟩
    · exact hold y hy

theorem asked_of_reachable (hs : (listPool svc print req out).Reachable System.Any s) : Asked svc print req s := by
  have hinv := hs.invariant
    (fun s => Pool.OnPath (fun i => (req i).handler svc print) s ∧ Asked svc print req s) ?_ ?_
  · exact hinv.2
  · rintro s ⟨hmem, hidle⟩
    have hempty : s.mem = [] := hmem
    refine ⟨Pool.onPath_of_idle hidle, ?_, fun x hx => ?_⟩
    · rw [hempty]
      exact List.nodup_nil
    · rw [hempty] at hx
      cases hx
  · rintro s e s' ⟨hpath, hasked⟩ - hstep
    exact ⟨Pool.onPath_step hpath hstep, asked_step hpath hasked hstep⟩

/-- **The cache, key by key**: it has one entry a key at most, and no more entries than keys that were asked for; a
request that looks its key up, or stores its response, leaves no expired entry under the key; and no request touches
the entries under other keys. -/
theorem cache_per_key (hs : (listPool svc print req out).Reachable System.Any s) :
    Keyed s.mem ∧
    (∀ keys : Finset String, (∀ i, s.thread i ≠ .idle → (req i).key svc print ∈ keys) → s.mem.length ≤ keys.card) ∧
    ∀ e s', (listPool svc print req out).step s e = some s' →
      (∀ t ∈ accessTime req s' e, ∀ x ∈ s'.mem, x.1 = (req (request e)).key svc print → t ≤ x.2.ts + cacheTtl) ∧
      ∀ x, x.1 ≠ (req (request e)).key svc print → (x ∈ s'.mem ↔ x ∈ s.mem) := by
  have hasked := asked_of_reachable hs
  refine ⟨hasked.keyed, fun keys hkeys => hasked.keyed.length_le fun x hx => ?_, fun e s' hstep => ?_⟩
  · obtain ⟨i, hi, hkey⟩ := hasked.asked x hx
    exact hkey ▸ hkeys i hi
  · obtain ⟨i, rfl, hmem⟩ | ⟨hmem, htime⟩ | ⟨i, x, page, rfl, hmem⟩ := listPool_step (Pool.path hs) hstep
    · rw [hmem]
      refine ⟨?_, fun x hx => mem_get_of_ne hx⟩
      rintro t ⟨⟩ x hx hkey
      exact hasked.keyed.get_fresh hx hkey
    · rw [hmem, htime]
      refine ⟨?_, fun x _ => Iff.rfl⟩
      rintro t ⟨⟩
    · rw [hmem]
      refine ⟨fun t ht y hy hkey => ?_, fun y hy => mem_put_of_ne hy⟩
      obtain rfl := accessTime_answer ht
      rw [eq_of_mem_put hy hkey]
      exact Nat.le_add_right _ _

end

/-! ### A page that nobody asks for again -/

/-- The first page is asked for at 0, and the second one a minute later. -/
def twoPages : Fin 2 → TimedQuery
  | 0 => ⟨{}, 0, 0⟩
  | 1 => ⟨{ page := some "2" }, 60001, 60001⟩

/-- One after the other, up to the last statement. -/
def twoPagesRun : List (PoolEvent (Fin 2) Tick) := [.start 0, .answer 0 {}, .answer 0 {}, .start 1, .answer 1 {}]

def atRest : Pool (Fin 2) Db Stmt Answer Thrown TextCache Response := ⟨casa, [], fun _ => .idle⟩

def twoPagesPool : System (Pool (Fin 2) Db Stmt Answer Thrown TextCache Response) (PoolEvent (Fin 2) Tick) :=
  listPool plainServices printInt twoPages (exec plainServices)

theorem twoPages_last : ∃ s s', twoPagesPool.Reachable System.Any s ∧
    twoPagesPool.step s (.answer 1 {}) = some s' ∧
    accessTime twoPages s' (.answer 1 ({} : Tick)) = some 60001 ∧ s'.mem.map (·.2.ts) = [60001, 0] := by
  obtain ⟨s, hs, hlast⟩ := System.reachable_of_exec twoPagesPool (fun _ _ => true)
    (fun s => (twoPagesPool.step s (.answer 1 {})).map fun s' =>
      (accessTime twoPages s' (.answer 1 ({} : Tick)), s'.mem.map (·.2.ts)))
    (s := atRest) twoPagesRun (a := some (some 60001, [60001, 0])) ⟨rfl, fun _ => rfl⟩ (by decide +kernel)
  obtain ⟨s', hstep, hs'⟩ := Option.map_eq_some_iff.mp hlast
  obtain ⟨htime, hmem⟩ := Prod.mk.inj hs'
  exact ⟨s, s', hs.mono fun _ _ _ => trivial, hstep, htime, hmem⟩

/-- The two entries have their own keys. -/
theorem cache_per_key_twoPages : ∃ s', twoPagesPool.Reachable System.Any s' ∧ Keyed s'.mem ∧ s'.mem.length = 2 := by
  obtain ⟨s, s', hs, hstep, -, hmem⟩ := twoPages_last
  have hs' : twoPagesPool.Reachable System.Any s' := hs.trans (.single trivial hstep)
  refine ⟨s', hs', (cache_per_key hs').1, ?_⟩
  rw [← List.length_map, hmem]
  rfl

/-- **The first page stays**: after the request for the second page, its entry is more than a minute old. -/
theorem first_page_stays :
    ¬ ∀ (s s' : Pool (Fin 2) Db Stmt Answer Thrown TextCache Response) (e : PoolEvent (Fin 2) Tick),
      twoPagesPool.Reachable System.Any s → twoPagesPool.step s e = some s' →
      ∀ t ∈ accessTime twoPages s' e, ∀ x ∈ s'.mem, t ≤ x.2.ts + cacheTtl := by
  intro hclaim
  obtain ⟨s, s', hs, hstep, htime, hmem⟩ := twoPages_last
  have hold : 0 ∈ s'.mem.map (·.2.ts) := by
    rw [hmem]
    decide
  obtain ⟨x, hx, hts⟩ := List.mem_map.mp hold
  have hfresh := hclaim s s' _ hs hstep 60001 htime x hx
  rw [hts] at hfresh
  exact absurd hfresh (by decide)

end Locus.Server
