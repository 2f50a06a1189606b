import Locus.Server.ListCache
import Locus.Server.Pages
import Mathlib.Tactic.Linarith

/-!
# The radius of the distance queries

`GET /communities`, `/communities/nearby`, `/properties` and `/properties/map` compare the squared planar distance of
two pairs of coordinates with `radius * radius`, where `radius` is `parseFloat(radius) || 50`. In exact arithmetic a
query lets the rows through that lie within this many degrees of the point (`selectNearby_rational`), and its route
answers with a page of them by time, from the cache or not (`PointRoute.Works`).

A larger radius lets through what a smaller one does, where `0` means 50 (`larger_radius`). The app sends its radius
in kilometres: a row of the page is within that distance exactly when its degrees do not count for more
(`nearby_within_iff`), and a degree of latitude counts for 110.
-/

namespace Locus.Server

open Lib.Paging (Ordered above tied page)

/-! ### Exact arithmetic -/

/-- `float8` without rounding and overflow, on the texts that `read` reads. -/
def rationalFloat8 (read : String → Option ℚ) : Float8 where
  V := ℚ
  cast text := match read text with
    | some x => .ok x
    | none => .error ("invalid input syntax for type double precision: \"" ++ text ++ "\"")
  add x y := .ok (x + y)
  sub x y := .ok (x - y)
  mul x y := .ok (x * y)
  le x y := decide (x ≤ y)

/-- PostgreSQL computes with rational numbers, reads `0` and `50` as JavaScript prints them, and `NaN` as none;
JavaScript prints zero as `0`. -/
structure Exact (svc : Services) (read : String → Option ℚ) : Prop where
  float8 : svc.float8 = rationalFloat8 read
  nan : read "NaN" = none
  zero : read "0" = some 0
  fifty : read "50" = some 50
  printed : ∀ text, read (svc.parseFloat text) = some 0 → svc.parseFloat text = "0"

/-- The query string gives the point `p` and the radius `r`. -/
structure ListQuery.Around (svc : Services) (read : String → Option ℚ) (q : ListQuery) (p : ℚ × ℚ) (r : ℚ) : Prop where
  lat : read (svc.parseFloat q.lat) = some p.1
  lng : read (svc.parseFloat q.lng) = some p.2
  radius : read (svc.parseFloat q.radius) = some r

/-- `radius || 50` -/
def orFifty (r : ℚ) : ℚ := if r = 0 then 50 else r

section
variable (read : String → Option ℚ)

/-- The coordinates of a stored location. -/
def placeOf (location : Option Json) : Option (ℚ × ℚ) :=
  location.bind fun l => (l.textAt "lat").bind fun a => (l.textAt "lng").bind fun b =>
    (read a).bind fun x => (read b).map fun y => (x, y)

def Numeric (location : Option Json) : Prop :=
  ∀ l ∈ location, ∀ a ∈ l.textAt "lat", ∀ b ∈ l.textAt "lng", (read a).isSome ∧ (read b).isSome

/-- The location lies within `r` of `p`, in the plane of the coordinates. -/
def inReach (p : ℚ × ℚ) (r : ℚ) (location : Option Json) : Bool :=
  match placeOf read location with
  | some place => (place.1 - p.1) * (place.1 - p.1) + (place.2 - p.2) * (place.2 - p.2) ≤ r * r
  | none => false

end

section
variable {svc : Services} {read : String → Option ℚ} {q : ListQuery} {p : ℚ × ℚ} {r : ℚ}

theorem rationalFloat8_cast {text : String} {x : ℚ} (h : read text = some x) :
    (rationalFloat8 read).cast text = .ok x := by
  simp only [rationalFloat8, h]

theorem nearby_rational {location : Option Json} (h : Numeric read location) (p : ℚ × ℚ) (r : ℚ) :
    nearby (rationalFloat8 read) p.1 p.2 (r * r : ℚ) location = .ok (inReach read p r location) := by
  unfold nearby inReach placeOf
  cases location with
  | none => rfl
  | some l =>
    dsimp only [Option.bind_some]
    cases ha : l.textAt "lat" with
    | none => rfl
    | some a =>
      cases hb : l.textAt "lng" with
      | none => rfl
      | some b =>
        obtain ⟨hx, hy⟩ := h l rfl a ha b hb
        obtain ⟨x, hx⟩ := Option.isSome_iff_exists.mp hx
        obtain ⟨y, hy⟩ := Option.isSome_iff_exists.mp hy
        simp only [Option.bind_some, hx, hy, Option.map_some, withinRadius, rationalFloat8_cast hx,
          rationalFloat8_cast hy]
        rfl

theorem read_radiusOf (h : Exact svc read) (hq : q.Around svc read p r) : read (radiusOf svc q) = some (orFifty r) := by
  have hnan : svc.parseFloat q.radius ≠ "NaN" := by
    intro hnan
    have hradius := hq.radius
    rw [hnan, h.nan] at hradius
    cases hradius
  have hzero : svc.parseFloat q.radius = "0" ↔ r = 0 := by
    constructor
    · intro hzero
      have hradius := hq.radius
      rw [hzero, h.zero] at hradius
      exact (Option.some.inj hradius).symm
    · rintro rfl
      exact h.printed _ hq.radius
  unfold radiusOf orFifty
  dsimp only
  by_cases hr : r = 0
  · rw [if_pos (.inr (hzero.mpr hr)), if_pos hr]
    exact h.fifty
  · rw [if_neg (by simp [hnan, hzero, hr]), if_neg hr]
    exact hq.radius

/-- **A distance query lets the rows in reach through.** -/
theorem selectNearby_rational {α : Type} (h : Exact svc read) (hq : q.Around svc read p r) {location : α → Option Json}
    {rows : List α} (hrows : ∀ row ∈ rows, Numeric read (location row)) :
    selectNearby svc.float8 location (svc.parseFloat q.lat) (svc.parseFloat q.lng) (radiusOf svc q) rows =
      .ok (rows.filter fun row => inReach read p (orFifty r) (location row)) := by
  rw [h.float8]
  refine selectNearby_eq_ok.mpr ⟨p.1, p.2, orFifty r, orFifty r * orFifty r, rationalFloat8_cast hq.lat,
    rationalFloat8_cast hq.lng, rationalFloat8_cast (read_radiusOf h hq), rfl, filterNearby_eq_ok.mpr ⟨?_, ?_⟩⟩
  · intro row hrow
    exact ⟨_, nearby_rational (hrows row hrow) p (orFifty r)⟩
  · refine List.filter_congr fun row hrow => ?_
    exact (congrArg (fun near => near.toOption.getD false) (nearby_rational (hrows row hrow) p (orFifty r))).symm

end

/-! ### The four routes -/

structure PointRoute (α : Type) where
  id : α → Uuid
  createdAt : α → Time
  location : α → Option Json
  table : Db → List α
  /-- The request with a query string. -/
  request : ListQuery → ApiRequest
  limit : ListQuery → JsInt
  offset : ListQuery → JsInt
  /-- The ids of the rows in a response. -/
  ids : Body → List Uuid

/-- `GET /communities` -/
def communitiesRoute : PointRoute CommunityRow where
  id := (·.id)
  createdAt := (·.createdAt)
  location := (·.location)
  table := (·.communities)
  request := .getCommunities
  limit q := (paging 50 10 q.page q.limit).limit
  offset q := (paging 50 10 q.page q.limit).offset
  ids
    | .communityPage page => page.data.map (·.id)
    | _ => []

/-- `GET /communities/nearby` -/
def communitiesNearbyRoute : PointRoute CommunityRow where
  id := (·.id)
  createdAt := (·.createdAt)
  location := (·.location)
  table := (·.communities)
  request := .getCommunitiesNearby
  limit _ := .int 50
  offset _ := .int 0
  ids
    | .communities rows => rows.map (·.id)
    | _ => []

/-- `GET /properties` -/
def propertiesRoute : PointRoute PropertyRow where
  id := (·.id)
  createdAt := (·.createdAt)
  location := (·.location)
  table := (·.properties)
  request := .getProperties
  limit q := (paging 50 15 q.page q.limit).limit
  offset q := (paging 50 15 q.page q.limit).offset
  ids
    | .propertyPage page => page.data.map (·.id)
    | _ => []

/-- `GET /properties/map` -/
def propertiesMapRoute : PointRoute PropertyRow where
  id := (·.id)
  createdAt := (·.createdAt)
  location := (·.location)
  table := (·.properties)
  request := .getPropertiesMap
  limit _ := .int 100
  offset _ := .int 0
  ids
    | .pins pins => pins.map (·.id)
    | _ => []

section
variable {α : Type} (svc : Services) (route : PointRoute α)

def PointRoute.passing (db : Db) (q : ListQuery) : Except PgError (List α) :=
  selectNearby svc.float8 route.location (svc.parseFloat q.lat) (svc.parseFloat q.lng) (radiusOf svc q) (route.table db)

def PointRoute.pageIds (tick : Tick) (q : ListQuery) (rows : List α) : List Uuid :=
  ((pageOf (route.limit q) (route.offset q) (newestFirst tick route.id route.createdAt rows)).toOption.map
    fun rows => rows.map route.id).getD []

/-- The ids in the response to a query. -/
def PointRoute.answer (s : ServerState) (q : ListQuery) (env : NodeEnv) (x : ℕ → Tick) : List Uuid :=
  route.ids (serve svc s (route.request q) env x).1.body

/-- The cached pages of lists around a point hold what the table answers: it has not changed since. -/
def PointCoherent (s : ServerState) : Prop :=
  ∀ e ∈ s.cache, e.1.lat ≠ "NaN" → e.1.lng ≠ "NaN" → ∃ tick near,
    selectNearby svc.float8 (·.location) e.1.lat e.1.lng e.1.radius s.db.communities = .ok near ∧
    pageOf e.1.limit (e.1.page.offset e.1.limit) (newestFirst tick (·.id) (·.createdAt) near) = .ok e.2.data.data

/-- A response around a point shows a page, by time, of the rows that pass the filter, and any such page can be the
one. -/
structure PointRoute.Works : Prop where
  limit : ∀ q, ∃ l, readBigint (route.limit q) = .ok l ∧ 0 < l
  answer : ∀ {s q env x near}, PointCoherent svc s → (∀ n, (x n).fault = none) → svc.parseFloat q.lat ≠ "NaN" →
    svc.parseFloat q.lng ≠ "NaN" → route.passing svc s.db q = .ok near →
    ∃ tick, route.answer svc s q env x = route.pageIds tick q near
  order : ∀ {db q near} (tick : Tick), tick.fault = none → svc.parseFloat q.lat ≠ "NaN" →
    svc.parseFloat q.lng ≠ "NaN" → route.passing svc db q = .ok near →
    route.answer svc ⟨db, []⟩ q ⟨0, "", 0⟩ (fun _ => tick) = route.pageIds tick q near

end

section
variable {svc : Services} {q : ListQuery} {db : Db} {x : ℕ → Tick}

theorem countNearby_eq {α : Type} {near : List α} {found : Except PgError (List α)} (h : found = .ok near) :
    ((found.map (·.length)).map (·, db) : Except PgError (ℕ × Db)) = .ok (near.length, db) := by
  rw [h]
  rfl

theorem pageNearby_eq {α : Type} {near : List α} {found : Except PgError (List α)} (h : found = .ok near)
    (limit offset : JsInt) (order : List α → List α) :
    (found >>= fun rows => pageOf limit offset (order rows)).map (·, db) =
      (pageOf limit offset (order near)).map (·, db) := by
  rw [h]
  rfl

theorem paging_bigint {most usual : ℤ} (hmost : 1 ≤ most) (hmost' : most < 2 ^ 53) (page limit : Option String) :
    ∃ l, readBigint (paging most usual page limit).limit = .ok l ∧ 0 < l := by
  obtain ⟨n, hn, hpos, hle⟩ := @paging_limit most usual hmost page limit
  refine ⟨n.toNat, ?_, by omega⟩
  rw [hn, readBigint, if_pos ⟨by omega, by omega⟩]

theorem communitiesNearby_answer {s : ServerState} {env : NodeEnv} {near : List CommunityRow}
    (hx : (x 0).fault = none) (hlat : svc.parseFloat q.lat ≠ "NaN") (hlng : svc.parseFloat q.lng ≠ "NaN")
    (hnear : communitiesNearbyRoute.passing svc s.db q = .ok near) :
    communitiesNearbyRoute.answer svc s q env x = communitiesNearbyRoute.pageIds (x 0) q near := by
  unfold PointRoute.answer PointRoute.pageIds serve
  dsimp only [communitiesNearbyRoute, ApiRequest.handler, getCommunitiesNearby]
  rw [if_neg (by simp [hlat, hlng])]
  refine catch500_row (.selectCommunitiesNearby _ _ _ _ _) communitiesNearbyRoute.ids (fun rows => rows.map (·.id)) hx
    (pageNearby_eq hnear _ _ _) (fun _ => rfl) fun rows _ => ?_
  rfl

theorem propertiesMap_answer {s : ServerState} {env : NodeEnv} {near : List PropertyRow}
    (hx : (x 0).fault = none) (hlat : svc.parseFloat q.lat ≠ "NaN") (hlng : svc.parseFloat q.lng ≠ "NaN")
    (hnear : propertiesMapRoute.passing svc s.db q = .ok near) :
    propertiesMapRoute.answer svc s q env x = propertiesMapRoute.pageIds (x 0) q near := by
  unfold PointRoute.answer PointRoute.pageIds serve
  dsimp only [propertiesMapRoute, ApiRequest.handler, getPropertiesMap]
  rw [if_neg (by simp [hlat, hlng])]
  refine catch500_row (.selectPropertiesNearby _ _ _ _ _) propertiesMapRoute.ids (fun rows => rows.map (·.id)) hx
    (pageNearby_eq hnear _ _ _) (fun _ => rfl) fun rows _ => ?_
  show (rows.map (pinOf svc)).map (·.id) = _
  rw [List.map_map]
  rfl

theorem communities_answer {s : ServerState} {env : NodeEnv} {near : List CommunityRow}
    (hx : ∀ n, (x n).fault = none) (hlat : svc.parseFloat q.lat ≠ "NaN") (hlng : svc.parseFloat q.lng ≠ "NaN")
    (hcache : (lookupCache env.now (keyOf svc q) s.cache).1 = none)
    (hnear : communitiesRoute.passing svc s.db q = .ok near) :
    communitiesRoute.answer svc s q env x = communitiesRoute.pageIds (x 1) q near := by
  dsimp only [keyOf] at hcache
  unfold PointRoute.answer PointRoute.pageIds serve
  dsimp only [communitiesRoute, ApiRequest.handler, getCommunities]
  rw [getCached_run, hcache]
  dsimp only
  rw [if_pos ⟨hlat, hlng⟩]
  refine catch500_rows (.countCommunitiesNearby _ _ _) (.selectCommunitiesNearby _ _ _ _ _) communitiesRoute.ids
    (fun rows => rows.map (·.id)) hx (countNearby_eq hnear) (pageNearby_eq hnear _ _ _) (fun _ => rfl) fun rows _ => ?_
  rfl

theorem communities_cached {s : ServerState} {env : NodeEnv} {near : List CommunityRow} {cached : Page CommunityRow}
    (hs : PointCoherent svc s) (hlat : svc.parseFloat q.lat ≠ "NaN") (hlng : svc.parseFloat q.lng ≠ "NaN")
    (hcache : (lookupCache env.now (keyOf svc q) s.cache).1 = some cached)
    (hnear : communitiesRoute.passing svc s.db q = .ok near) :
    ∃ tick, communitiesRoute.answer svc s q env x = communitiesRoute.pageIds tick q near := by
  obtain ⟨-, hfound⟩ := lookupCache_forall hs env.now (keyOf svc q)
  obtain ⟨ts, hentry⟩ := hfound cached hcache
  obtain ⟨tick, near', hnear', hpage⟩ := hentry hlat hlng
  obtain rfl : near' = near := Except.ok.inj (hnear'.symm.trans hnear)
  have hids : communitiesRoute.pageIds tick q near' = cached.data.map (·.id) :=
    congrArg (fun rows => (rows.toOption.map fun rows => rows.map (·.id)).getD []) hpage
  refine ⟨tick, ?_⟩
  rw [hids]
  exact congrArg (fun out => communitiesRoute.ids out.1.body) (serve_cached hcache)

theorem serve_getCommunities_pointCoherent {s : ServerState} (hs : PointCoherent svc s) (q : ListQuery)
    (env : NodeEnv) (x : ℕ → Tick) :
    (serve svc s (.getCommunities q) env x).2.db = s.db ∧
      PointCoherent svc (serve svc s (.getCommunities q) env x).2 := by
  let Keeps : Response × Db × Cache → Prop := fun out => out.2.1 = s.db ∧ PointCoherent svc ⟨out.2.1, out.2.2⟩
  show Keeps (((ApiRequest.getCommunities q).handler svc env).run (exec svc) x s.db s.cache)
  obtain ⟨hrest, -⟩ := lookupCache_forall hs env.now (keyOf svc q)
  dsimp only [keyOf] at hrest
  dsimp only [ApiRequest.handler, getCommunities]
  rw [getCached_run]
  split
  · exact ⟨rfl, hrest⟩
  · split
    · refine catch500_list (P := Keeps) rfl rfl (fun total rows _ hrows => ?_) fun _ => ⟨rfl, hrest⟩
      refine ⟨rfl, Lib.TtlCache.put_forall hrest fun _ _ => ?_⟩
      obtain ⟨near, hnear, hpage⟩ := bind_eq_ok.mp (ok_of_map hrows)
      exact ⟨_, near, hnear, hpage⟩
    · rename_i hpoint
      refine catch500_list (P := Keeps) rfl rfl (fun total rows _ hrows => ?_) fun _ => ⟨rfl, hrest⟩
      exact ⟨rfl, Lib.TtlCache.put_forall hrest fun hlat hlng => absurd ⟨hlat, hlng⟩ hpoint⟩

theorem communitiesRoute_works : communitiesRoute.Works svc where
  limit q := paging_bigint (by norm_num) (by norm_num) q.page q.limit
  answer := by
    intro s q env x near hs hx hlat hlng hnear
    cases hcache : (lookupCache env.now (keyOf svc q) s.cache).1 with
    | none => exact ⟨x 1, communities_answer hx hlat hlng hcache hnear⟩
    | some cached => exact communities_cached hs hlat hlng hcache hnear
  order tick htick hlat hlng hnear := communities_answer (fun _ => htick) hlat hlng rfl hnear

theorem communitiesNearbyRoute_works : communitiesNearbyRoute.Works svc where
  limit _ := ⟨50, rfl, by norm_num⟩
  answer _ hx hlat hlng hnear := ⟨_, communitiesNearby_answer (hx 0) hlat hlng hnear⟩
  order tick htick hlat hlng hnear := communitiesNearby_answer (x := fun _ => tick) htick hlat hlng hnear

theorem propertiesMapRoute_works : propertiesMapRoute.Works svc where
  limit _ := ⟨100, rfl, by norm_num⟩
  answer _ hx hlat hlng hnear := ⟨_, propertiesMap_answer (hx 0) hlat hlng hnear⟩
  order tick htick hlat hlng hnear := propertiesMap_answer (x := fun _ => tick) htick hlat hlng hnear

end

/-! ### An instance -/

structure NumericTables (read : String → Option ℚ) (db : Db) : Prop where
  communities : ∀ c ∈ db.communities, Numeric read c.location
  properties : ∀ row ∈ db.properties, Numeric read row.location

/-- Stand-ins with exact arithmetic, which print zero as `0`. -/
def exactServices : Services :=
  { plainServices with
    float8 := rationalFloat8 readDecimal
    parseFloat := fun v => match v with
      | some text => match readDecimal text with
        | some x => if x = 0 then "0" else text
        | none => "NaN"
      | none => "NaN" }

theorem exactServices_exact : Exact exactServices readDecimal where
  float8 := rfl
  nan := by decide +kernel
  zero := by decide +kernel
  fifty := by decide +kernel
  printed := by
    have hnan : readDecimal "NaN" ≠ some 0 := by decide +kernel
    intro text hzero
    cases text with
    | none => exact absurd hzero hnan
    | some text =>
      change readDecimal (match readDecimal text with
        | some x => if x = 0 then "0" else text
        | none => "NaN") = some 0 at hzero
      change (match readDecimal text with
        | some x => if x = 0 then "0" else text
        | none => "NaN") = "0"
      cases hread : readDecimal text with
      | none =>
        rw [hread] at hzero
        exact absurd hzero hnan
      | some x =>
        rw [hread] at hzero
        dsimp only at hzero ⊢
        by_cases hx : x = 0
        · exact if_pos hx
        · rw [if_neg hx, hread] at hzero
          exact absurd (Option.some.inj hzero) hx

def communityAt (lat : String) : Db where
  communities := [{ id := 1, name := "Casa", description := none,
                    location := some (.obj [("lat", .num lat), ("lng", .num "0")]), ownerId := 1, memberCount := 1,
                    createdAt := 0 }]

/-- Around `(0, 0)`. -/
def aroundZero (radius : String) : ListQuery := { lat := some "0", lng := some "0", radius := some radius }

theorem communityAt_numeric {lat : String} (h : (readDecimal lat).isSome) :
    NumericTables readDecimal (communityAt lat) where
  communities := by
    intro c hc l hl a ha b hb
    obtain rfl := List.mem_singleton.mp hc
    obtain rfl := Option.some.inj hl
    obtain rfl := Option.some.inj ha
    obtain rfl := Option.some.inj hb
    exact ⟨h, by decide +kernel⟩
  properties _ hrow := nomatch hrow

/-! ### Two radii -/

section
variable {svc : Services} {read : String → Option ℚ} {p : ℚ × ℚ}

theorem inReach_mono {r₁ r₂ : ℚ} (hr₁ : 0 ≤ r₁) (h : r₁ ≤ r₂) {location : Option Json}
    (hreach : inReach read p r₁ location = true) : inReach read p r₂ location = true := by
  unfold inReach at hreach ⊢
  cases hplace : placeOf read location with
  | none =>
    rw [hplace] at hreach
    cases hreach
  | some place =>
    rw [hplace] at hreach
    have hsquare : r₁ * r₁ ≤ r₂ * r₂ := mul_self_le_mul_self hr₁ h
    exact decide_eq_true ((of_decide_eq_true hreach).trans hsquare)

theorem orFifty_nonneg {r : ℚ} (hr : 0 ≤ r) : 0 ≤ orFifty r := by
  unfold orFifty
  split
  · norm_num
  · exact hr

/-- What the filter of a route lets through for the first query, it lets through for the second one. -/
def PointRoute.Grows {α : Type} (svc : Services) (route : PointRoute α) (db : Db) (q₁ q₂ : ListQuery) : Prop :=
  ∃ near₁ near₂, route.passing svc db q₁ = .ok near₁ ∧ route.passing svc db q₂ = .ok near₂ ∧ near₁ ⊆ near₂

theorem PointRoute.grows_iff {α : Type} (h : Exact svc read) (route : PointRoute α) {q₁ q₂ : ListQuery} {r₁ r₂ : ℚ}
    (hq₁ : q₁.Around svc read p r₁) (hq₂ : q₂.Around svc read p r₂) {db : Db}
    (hdb : ∀ row ∈ route.table db, Numeric read (route.location row)) : route.Grows svc db q₁ q₂ ↔
      ∀ row ∈ route.table db, inReach read p (orFifty r₁) (route.location row) = true →
        inReach read p (orFifty r₂) (route.location row) = true := by
  unfold PointRoute.Grows PointRoute.passing
  rw [selectNearby_rational h hq₁ hdb, selectNearby_rational h hq₂ hdb]
  constructor
  · rintro ⟨near₁, near₂, hnear₁, hnear₂, hsub⟩ row hrow hreach
    obtain rfl := Except.ok.inj hnear₁
    obtain rfl := Except.ok.inj hnear₂
    exact (List.mem_filter.mp (hsub (List.mem_filter.mpr ⟨hrow, hreach⟩))).2
  · intro hreach
    refine ⟨_, _, rfl, rfl, fun row hrow => ?_⟩
    rw [List.mem_filter] at hrow ⊢
    exact ⟨hrow.1, hreach row hrow.1 hrow.2⟩

theorem PointRoute.grows {α : Type} (h : Exact svc read) (route : PointRoute α) {q₁ q₂ : ListQuery} {r₁ r₂ : ℚ}
    (hq₁ : q₁.Around svc read p r₁) (hq₂ : q₂.Around svc read p r₂) (hr₁ : 0 ≤ r₁) (hle : orFifty r₁ ≤ orFifty r₂)
    {db : Db} (hdb : ∀ row ∈ route.table db, Numeric read (route.location row)) : route.Grows svc db q₁ q₂ :=
  (route.grows_iff h hq₁ hq₂ hdb).mpr fun _ _ => inReach_mono (orFifty_nonneg hr₁) hle

/-- **A larger radius finds no less**, on any of the four routes: radii from 0 on, where 0 stands for 50. -/
theorem larger_radius (h : Exact svc read) {db : Db} (hdb : NumericTables read db) {q₁ q₂ : ListQuery} {r₁ r₂ : ℚ}
    (hq₁ : q₁.Around svc read p r₁) (hq₂ : q₂.Around svc read p r₂) (hr₁ : 0 ≤ r₁)
    (hle : orFifty r₁ ≤ orFifty r₂) :
    communitiesRoute.Grows svc db q₁ q₂ ∧ communitiesNearbyRoute.Grows svc db q₁ q₂ ∧
      propertiesRoute.Grows svc db q₁ q₂ ∧ propertiesMapRoute.Grows svc db q₁ q₂ :=
  ⟨communitiesRoute.grows h hq₁ hq₂ hr₁ hle hdb.communities,
    communitiesNearbyRoute.grows h hq₁ hq₂ hr₁ hle hdb.communities,
    propertiesRoute.grows h hq₁ hq₂ hr₁ hle hdb.properties,
    propertiesMapRoute.grows h hq₁ hq₂ hr₁ hle hdb.properties⟩

end

/-- The radius 10 finds a community that the radius 1 does not, and no less. -/
theorem larger_radius_one_ten :
    communitiesNearbyRoute.Grows exactServices (communityAt "5.5") (aroundZero "1") (aroundZero "10") := by
  have hnumeric : NumericTables readDecimal (communityAt "5.5") := communityAt_numeric (by decide +kernel)
  have hone : (aroundZero "1").Around exactServices readDecimal (0, 0) 1 :=
    ⟨by decide +kernel, by decide +kernel, by decide +kernel⟩
  have hten : (aroundZero "10").Around exactServices readDecimal (0, 0) 10 :=
    ⟨by decide +kernel, by decide +kernel, by decide +kernel⟩
  exact (larger_radius exactServices_exact hnumeric hone hten (by norm_num) (by norm_num [orFifty])).2.1

theorem finds_more {radius : String} {r : ℚ} (hradius : (aroundZero radius).Around exactServices readDecimal (0, 0) r)
    (hone : (aroundZero "1").Around exactServices readDecimal (0, 0) 1)
    (hreach : inReach readDecimal (0, 0) (orFifty r) (some (.obj [("lat", .num "10"), ("lng", .num "0")])) = true) :
    ¬ communitiesNearbyRoute.Grows exactServices (communityAt "10") (aroundZero radius) (aroundZero "1") := by
  intro hgrows
  have hnumeric : ∀ c ∈ communitiesNearbyRoute.table (communityAt "10"), Numeric readDecimal c.location :=
    (communityAt_numeric (by decide +kernel)).communities
  have hfound := (communitiesNearbyRoute.grows_iff exactServices_exact hradius hone hnumeric).mp hgrows _
    List.mem_cons_self hreach
  revert hfound
  decide +kernel

/-- **Radii from 0 down do not grow**: the radius 0, and the radius -10, finds a community that the radius 1 does
not find. -/
theorem zero_finds_more :
    ((aroundZero "0").Around exactServices readDecimal (0, 0) 0 ∧
      (aroundZero "-10").Around exactServices readDecimal (0, 0) (-10) ∧
      (aroundZero "1").Around exactServices readDecimal (0, 0) 1) ∧
    ¬ communitiesNearbyRoute.Grows exactServices (communityAt "10") (aroundZero "0") (aroundZero "1") ∧
    ¬ communitiesNearbyRoute.Grows exactServices (communityAt "10") (aroundZero "-10") (aroundZero "1") := by
  have hzero : (aroundZero "0").Around exactServices readDecimal (0, 0) 0 :=
    ⟨by decide +kernel, by decide +kernel, by decide +kernel⟩
  have hnegative : (aroundZero "-10").Around exactServices readDecimal (0, 0) (-10) :=
    ⟨by decide +kernel, by decide +kernel, by decide +kernel⟩
  have hone : (aroundZero "1").Around exactServices readDecimal (0, 0) 1 :=
    ⟨by decide +kernel, by decide +kernel, by decide +kernel⟩
  refine ⟨⟨hzero, hnegative, hone⟩, ?_, ?_⟩
  · exact finds_more hzero hone (by decide +kernel)
  · exact finds_more hnegative hone (by decide +kernel)

/-! ### Degrees and kilometres -/

section
variable {α : Type}

/-- The rows that lie within `r` degrees of the point. -/
def PointRoute.within (read : String → Option ℚ) (route : PointRoute α) (db : Db) (p : ℚ × ℚ) (r : ℚ) : List α :=
  (route.table db).filter fun row => inReach read p r (route.location row)

/-- Among some rows, listed by time, the row can stand on the page of the query. -/
def PointRoute.CanStand (route : PointRoute α) (q : ListQuery) (rows : List α) (row : α) : Prop :=
  ∃ offset limit, readBigint (route.offset q) = .ok offset ∧ readBigint (route.limit q) = .ok limit ∧
    above route.createdAt rows row < offset + limit ∧
    offset < above route.createdAt rows row + tied route.createdAt rows row

/-- The location lies within the distance `r` of `p`. -/
def Within (read : String → Option ℚ) (d : ℚ × ℚ → ℚ × ℚ → ℚ) (p : ℚ × ℚ) (r : ℚ) (location : Option Json) : Prop :=
  ∃ place, placeOf read location = some place ∧ d p place ≤ r

/-- Some response to the query shows the row, from the tables or from cached pages of them. -/
def PointRoute.MayShow (svc : Services) (route : PointRoute α) (db : Db) (q : ListQuery) (row : α) : Prop :=
  ∃ s env x, s.db = db ∧ PointCoherent svc s ∧ (∀ n, (x n).fault = none) ∧ route.id row ∈ route.answer svc s q env x

/-- Every row that a response to the query shows lies within the distance `r` of `p`. -/
def PointRoute.Sound (svc : Services) (read : String → Option ℚ) (route : PointRoute α) (d : ℚ × ℚ → ℚ × ℚ → ℚ)
    (db : Db) (q : ListQuery) (p : ℚ × ℚ) (r : ℚ) : Prop :=
  ∀ row ∈ route.table db, route.MayShow svc db q row → Within read d p r (route.location row)

/-- The rows of the page that lie within `r` degrees lie within the distance `r`. -/
def PointRoute.DegreesSuffice (read : String → Option ℚ) (route : PointRoute α) (d : ℚ × ℚ → ℚ × ℚ → ℚ) (db : Db)
    (q : ListQuery) (p : ℚ × ℚ) (r : ℚ) : Prop :=
  ∀ row ∈ route.within read db p r, route.CanStand q (route.within read db p r) row →
    Within read d p r (route.location row)

/-- A row of the page that lies within `r` degrees is farther off than `r / 110` of latitude. -/
def PointRoute.Overshoots (read : String → Option ℚ) (route : PointRoute α) (db : Db) (q : ListQuery) (p : ℚ × ℚ)
    (r : ℚ) : Prop :=
  ∃ row ∈ route.within read db p r, route.CanStand q (route.within read db p r) row ∧
    ∃ place, placeOf read (route.location row) = some place ∧ r < 110 * |place.1 - p.1|

variable {svc : Services} {read : String → Option ℚ} {route : PointRoute α} {q : ListQuery} {p : ℚ × ℚ} {r : ℚ}
  {db : Db} {d : ℚ × ℚ → ℚ × ℚ → ℚ}

theorem PointRoute.mem_pageIds {rows : List α} {tick : Tick} {offset limit : ℕ} {u : Uuid}
    (hoffset : readBigint (route.offset q) = .ok offset) (hlimit : readBigint (route.limit q) = .ok limit) :
    u ∈ route.pageIds tick q rows ↔
      ∃ row ∈ page offset limit (newestFirst tick route.id route.createdAt rows), route.id row = u := by
  have hpage : pageOf (route.limit q) (route.offset q) (newestFirst tick route.id route.createdAt rows) =
      .ok (page offset limit (newestFirst tick route.id route.createdAt rows)) :=
    bind_eq_ok.mpr ⟨limit, hlimit, bind_eq_ok.mpr ⟨offset, hoffset, rfl⟩⟩
  unfold PointRoute.pageIds
  rw [hpage]
  exact List.mem_map

theorem PointRoute.pageIds_error {rows : List α} {tick : Tick} {e : PgError} {limit : ℕ}
    (hoffset : readBigint (route.offset q) = .error e) (hlimit : readBigint (route.limit q) = .ok limit) :
    route.pageIds tick q rows = [] := by
  unfold PointRoute.pageIds pageOf
  rw [hlimit, hoffset]
  rfl

/-- **The rows of a response, under some choice for the ties, are those that can stand on the page.** -/
theorem PointRoute.Works.mayShow_iff (h : route.Works svc) {near : List α}
    (hids : ((route.table db).map route.id).Nodup) (hlat : svc.parseFloat q.lat ≠ "NaN")
    (hlng : svc.parseFloat q.lng ≠ "NaN") (hnear : route.passing svc db q = .ok near)
    (hsub : near.Sublist (route.table db)) {row : α} (hrow : row ∈ route.table db) :
    route.MayShow svc db q row ↔ row ∈ near ∧ route.CanStand q near row := by
  obtain ⟨limit, hlimit, hpos⟩ := h.limit q
  constructor
  · rintro ⟨s, env, x, rfl, hs, hx, hmem⟩
    obtain ⟨tick, hanswer⟩ := h.answer hs hx hlat hlng hnear
    rw [hanswer] at hmem
    cases hoffset : readBigint (route.offset q) with
    | error e =>
      rw [PointRoute.pageIds_error hoffset hlimit] at hmem
      cases hmem
    | ok offset =>
      obtain ⟨row', hpage, hid⟩ := (PointRoute.mem_pageIds hoffset hlimit).mp hmem
      have horder := newestFirst_ordered tick route.id route.createdAt near
      have hnear' : row' ∈ near := horder.1.mem_iff.mp ((Lib.Paging.page_sublist ..).mem hpage)
      obtain rfl : row' = row := List.inj_on_of_nodup_map hids (hsub.mem hnear') hrow hid
      obtain ⟨hend, hstart⟩ := (Lib.Paging.exists_mem_page_iff hnear' hpos).mp ⟨_, horder, hpage⟩
      exact ⟨hnear', offset, limit, hoffset, hlimit, hend, hstart⟩
  · rintro ⟨hrow', offset, limit', hoffset, hlimit', hend, hstart⟩
    obtain rfl : limit' = limit := Except.ok.inj (hlimit'.symm.trans hlimit)
    obtain ⟨l, hl, hpage⟩ := (Lib.Paging.exists_mem_page_iff hrow' hpos).mpr ⟨hend, hstart⟩
    obtain ⟨tieBreak, htie⟩ := exists_tieBreak ((hsub.map route.id).nodup hids) hl
    refine ⟨⟨db, []⟩, ⟨0, "", 0⟩, fun _ => { tieBreak }, rfl, fun e he => (nomatch he), fun _ => rfl, ?_⟩
    rw [h.order _ rfl hlat hlng hnear, PointRoute.mem_pageIds hoffset hlimit]
    exact ⟨row, (htie { tieBreak } rfl).symm ▸ hpage, rfl⟩

/-- **A response shows rows within `r` kilometres only, exactly when its rows within `r` degrees are.** -/
theorem PointRoute.Works.sound_iff (h : route.Works svc) (hexact : Exact svc read) (hq : q.Around svc read p r)
    (hr : 0 < r) (hdb : ∀ row ∈ route.table db, Numeric read (route.location row))
    (hids : ((route.table db).map route.id).Nodup) :
    route.Sound svc read d db q p r ↔ route.DegreesSuffice read d db q p r := by
  have hNaN : ∀ {text x}, read (svc.parseFloat text) = some x → svc.parseFloat text ≠ "NaN" := by
    intro text x hread hnan
    rw [hnan, hexact.nan] at hread
    cases hread
  have hnear : route.passing svc db q = .ok (route.within read db p r) := by
    have := selectNearby_rational hexact hq hdb
    rwa [orFifty, if_neg hr.ne'] at this
  have hshow : ∀ {row}, row ∈ route.table db → (route.MayShow svc db q row ↔ _) :=
    fun hrow => h.mayShow_iff hids (hNaN hq.lat) (hNaN hq.lng) hnear List.filter_sublist hrow
  constructor
  · intro hsound row hrow hstand
    have htable := (List.mem_filter.mp hrow).1
    exact hsound row htable ((hshow htable).mpr ⟨hrow, hstand⟩)
  · intro hsuffice row hrow hmay
    obtain ⟨hnear', hstand⟩ := (hshow hrow).mp hmay
    exact hsuffice row hnear' hstand

theorem PointRoute.Overshoots.not_suffice (hd : ∀ a b, 110 * |b.1 - a.1| ≤ d a b) (h : route.Overshoots read db q p r) :
    ¬ route.DegreesSuffice read d db q p r := by
  intro hsuffice
  obtain ⟨row, hrow, hstand, place, hplace, hfar⟩ := h
  obtain ⟨place', hplace', hle⟩ := hsuffice row hrow hstand
  obtain rfl : place' = place := Option.some.inj (hplace'.symm.trans hplace)
  exact absurd (hfar.trans_le (hd p place')) (not_lt.mpr hle)

structure DistinctIds (db : Db) : Prop where
  communities : (db.communities.map (·.id)).Nodup
  properties : (db.properties.map (·.id)).Nodup

/-- **A search shows rows within `r` kilometres only, exactly when the rows of its page within `r` degrees lie
there**: never when one of them is more than `r / 110` degrees of latitude away. -/
theorem nearby_within_iff (h : Exact svc read) (hdb : NumericTables read db) (hids : DistinctIds db)
    (hq : q.Around svc read p r) (hr : 0 < r) (hd : ∀ a b, 110 * |b.1 - a.1| ≤ d a b) :
    ((communitiesRoute.Sound svc read d db q p r ↔ communitiesRoute.DegreesSuffice read d db q p r) ∧
      (communitiesNearbyRoute.Sound svc read d db q p r ↔ communitiesNearbyRoute.DegreesSuffice read d db q p r) ∧
      (propertiesMapRoute.Sound svc read d db q p r ↔ propertiesMapRoute.DegreesSuffice read d db q p r)) ∧
    (communitiesRoute.Overshoots read db q p r → ¬ communitiesRoute.Sound svc read d db q p r) ∧
    (communitiesNearbyRoute.Overshoots read db q p r → ¬ communitiesNearbyRoute.Sound svc read d db q p r) ∧
    (propertiesMapRoute.Overshoots read db q p r → ¬ propertiesMapRoute.Sound svc read d db q p r) := by
  have hcommunities := communitiesRoute_works.sound_iff (d := d) h hq hr hdb.communities hids.communities
  have hnearby := communitiesNearbyRoute_works.sound_iff (d := d) h hq hr hdb.communities hids.communities
  have hmap := propertiesMapRoute_works.sound_iff (d := d) h hq hr hdb.properties hids.properties
  refine ⟨⟨hcommunities, hnearby, hmap⟩, ?_, ?_, ?_⟩
  · exact fun hfar hsound => hfar.not_suffice hd (hcommunities.mp hsound)
  · exact fun hfar hsound => hfar.not_suffice hd (hnearby.mp hsound)
  · exact fun hfar hsound => hfar.not_suffice hd (hmap.mp hsound)

end

def latitudeKm (a b : ℚ × ℚ) : ℚ := 110 * |b.1 - a.1|

theorem aroundZero_five : (aroundZero "5").Around exactServices readDecimal (0, 0) 5 :=
  ⟨by decide +kernel, by decide +kernel, by decide +kernel⟩

theorem communityAt_ids (lat : String) : DistinctIds (communityAt lat) where
  communities := List.nodup_singleton 1
  properties := List.nodup_nil

/-- A community in the middle is within 5 km. -/
theorem nearby_within_iff_middle :
    communitiesNearbyRoute.Sound exactServices readDecimal latitudeKm (communityAt "0") (aroundZero "5") (0, 0) 5 := by
  have hnumeric : NumericTables readDecimal (communityAt "0") := communityAt_numeric (by decide +kernel)
  refine (nearby_within_iff exactServices_exact hnumeric (communityAt_ids "0") aroundZero_five (by norm_num)
    fun _ _ => le_rfl).1.2.1.mpr fun row hrow _ => ?_
  obtain rfl := List.mem_singleton.mp (List.mem_filter.mp hrow).1
  exact ⟨(0, 0), by decide +kernel, by decide +kernel⟩

/-- **5 km reach 5 degrees**: the search with the smallest radius of the map finds a community that is 550 km away. -/
theorem five_degrees_found :
    ¬ ∀ d : ℚ × ℚ → ℚ × ℚ → ℚ, (∀ a b, 110 * |b.1 - a.1| ≤ d a b) →
      communitiesNearbyRoute.Sound exactServices readDecimal d (communityAt "5") (aroundZero "5") (0, 0) 5 := by
  intro hclaim
  have hnumeric : ∀ c ∈ communitiesNearbyRoute.table (communityAt "5"), Numeric readDecimal c.location :=
    (communityAt_numeric (by decide +kernel)).communities
  have hsuffice := (communitiesNearbyRoute_works.sound_iff exactServices_exact aroundZero_five (by norm_num) hnumeric
    (communityAt_ids "5").communities).mp (hclaim latitudeKm fun _ _ => le_rfl)
  refine PointRoute.Overshoots.not_suffice (fun _ _ => le_rfl) ?_ hsuffice
  refine ⟨_, List.mem_filter.mpr ⟨List.mem_singleton.mpr rfl, by decide +kernel⟩, ?_, (5, 0), by decide +kernel,
    by norm_num⟩
  exact ⟨0, 50, rfl, rfl, by decide +kernel, by decide +kernel⟩

end Locus.Server
