import Locus.Server.Api
import Mathlib.Tactic.Linarith
import Mathlib.Tactic.NormNum

/-!
# The distance queries and the locations that break them

`GET /communities`, `/communities/nearby`, `/properties` and `/properties/map` cast the `lat` and `lng` of
every stored location to `float8`. `POST /communities` and `POST /properties` store any JSON. One location
that PostgreSQL cannot read or square makes every one of these reads answer 500, for everyone
(`poisoned_map`). They answer 200 in a state exactly when each stored location is measurable
(`geo_ok_iff`), hence in every state of every run whose requests store measurable locations only
(`geo_endpoints_ok`).
-/

namespace Locus.Server

open Lib

/-- `text` reads as a number between `lo` and `hi`. -/
def Float8.Between (f : Float8) (lo hi text : String) : Prop :=
  ∃ l h v, f.cast lo = .ok l ∧ f.cast hi = .ok h ∧ f.cast text = .ok v ∧ f.le l v ∧ f.le v h

/-- A query with its point and radius in range, and a radius that can be squared. -/
structure GeoQuery (svc : Services) (q : ListQuery) : Prop where
  lat_number : svc.parseFloat q.lat ≠ "NaN"
  lng_number : svc.parseFloat q.lng ≠ "NaN"
  lat : svc.float8.Between "-90" "90" (svc.parseFloat q.lat)
  lng : svc.float8.Between "-180" "180" (svc.parseFloat q.lng)
  radius : svc.float8.Between "0" "1000" (radiusOf svc q)
  square : ∀ r, svc.float8.cast (radiusOf svc q) = .ok r → ∃ rr, svc.float8.mul r r = .ok rr

/-- The offset of a page is a `bigint`. -/
def Pageable (usual : ℤ) (q : ListQuery) : Prop :=
  ∃ n, readBigint (paging 50 usual q.page q.limit).offset = .ok n

def GeoRequest (svc : Services) : ApiRequest → Prop
  | .getCommunities q => GeoQuery svc q ∧ Pageable 10 q
  | .getCommunitiesNearby q => GeoQuery svc q
  | .getProperties q => GeoQuery svc q ∧ Pageable 15 q
  | .getPropertiesMap q => GeoQuery svc q
  | _ => False

/-- PostgreSQL computes the squared distance of the point with the texts `a` and `b` from `(p, q)`. -/
def Measurable (f : Float8) (a b : String) (p q : f.V) : Prop :=
  ∃ x y dx dy xx yy d, f.cast a = .ok x ∧ f.cast b = .ok y ∧ f.sub x p = .ok dx ∧ f.sub y q = .ok dy ∧
    f.mul dx dx = .ok xx ∧ f.mul dy dy = .ok yy ∧ f.add xx yy = .ok d

/-- The location lacks a coordinate, or is measurable from the point of the query. -/
def MeasuredFrom (svc : Services) (lq : ListQuery) (l : Json) : Prop :=
  ∀ a b, l.textAt "lat" = some a → l.textAt "lng" = some b →
    ∀ p q, svc.float8.cast (svc.parseFloat lq.lat) = .ok p →
      svc.float8.cast (svc.parseFloat lq.lng) = .ok q → Measurable svc.float8 a b p q

/-- The location lacks a coordinate, or is measurable from every point in range. -/
def Located (svc : Services) (l : Json) : Prop :=
  ∀ lq, GeoQuery svc lq → MeasuredFrom svc lq l

/-! ### One query -/

theorem withinRadius_ok_iff (f : Float8) (a b : String) (p q rr : f.V) :
    (∃ near, withinRadius f a b p q rr = .ok near) ↔ Measurable f a b p q := by
  unfold withinRadius Measurable
  constructor
  · rintro ⟨near, h⟩
    obtain ⟨x, hx, h⟩ := bind_eq_ok.mp h
    obtain ⟨dx, hdx, h⟩ := bind_eq_ok.mp h
    obtain ⟨y, hy, h⟩ := bind_eq_ok.mp h
    obtain ⟨dy, hdy, h⟩ := bind_eq_ok.mp h
    obtain ⟨xx, hxx, h⟩ := bind_eq_ok.mp h
    obtain ⟨yy, hyy, h⟩ := bind_eq_ok.mp h
    obtain ⟨d, hd, -⟩ := bind_eq_ok.mp h
    exact ⟨x, y, dx, dy, xx, yy, d, hx, hy, hdx, hdy, hxx, hyy, hd⟩
  · rintro ⟨x, y, dx, dy, xx, yy, d, hx, hy, hdx, hdy, hxx, hyy, hd⟩
    exact ⟨f.le d rr, bind_eq_ok.mpr ⟨x, hx, bind_eq_ok.mpr ⟨dx, hdx, bind_eq_ok.mpr ⟨y, hy,
      bind_eq_ok.mpr ⟨dy, hdy, bind_eq_ok.mpr ⟨xx, hxx, bind_eq_ok.mpr ⟨yy, hyy,
        bind_eq_ok.mpr ⟨d, hd, rfl⟩⟩⟩⟩⟩⟩⟩⟩

theorem filterNearby_ok_iff {α : Type} (f : Float8) (location : α → Option Json) (p q rr : f.V)
    (rows : List α) : (∃ out, filterNearby f location p q rr rows = .ok out) ↔
      ∀ row ∈ rows, ∃ near, nearby f p q rr (location row) = .ok near := by
  constructor
  · rintro ⟨out, h⟩
    exact (filterNearby_eq_ok.mp h).1
  · exact fun h => ⟨_, filterNearby_eq_ok.mpr ⟨h, rfl⟩⟩

theorem selectNearby_ok_iff {α : Type} {svc : Services} {lq : ListQuery} (hq : GeoQuery svc lq)
    (location : α → Option Json) (rows : List α) :
    (∃ out, selectNearby svc.float8 location (svc.parseFloat lq.lat) (svc.parseFloat lq.lng)
      (radiusOf svc lq) rows = .ok out) ↔
    ∀ row ∈ rows, ∀ l, location row = some l → MeasuredFrom svc lq l := by
  obtain ⟨-, -, p, -, -, hp, -⟩ := hq.lat
  obtain ⟨-, -, q, -, -, hq', -⟩ := hq.lng
  obtain ⟨-, -, r, -, -, hr, -⟩ := hq.radius
  obtain ⟨rr, hrr⟩ := hq.square r hr
  have hselect : selectNearby svc.float8 location (svc.parseFloat lq.lat)
      (svc.parseFloat lq.lng) (radiusOf svc lq) rows =
      (filterNearby svc.float8 location p q rr rows).mapError .float8 := by
    unfold selectNearby
    rw [hp, hq', hr]
    show Except.mapError _ (svc.float8.mul r r >>= _) = _
    rw [hrr]
    rfl
  have hrow : ∀ row, (∃ near, nearby svc.float8 p q rr (location row) = .ok near) ↔
      ∀ l, location row = some l → MeasuredFrom svc lq l := by
    intro row
    cases hl : location row with
    | none => exact ⟨fun _ l h => (nomatch h), fun _ => ⟨false, rfl⟩⟩
    | some l =>
      simp only [Option.some.injEq, forall_eq', MeasuredFrom, hp, hq', Except.ok.injEq, nearby]
      cases ha : l.textAt "lat" with
      | none => exact ⟨fun _ a b h => (nomatch h), fun _ => ⟨false, rfl⟩⟩
      | some a =>
        cases hb : l.textAt "lng" with
        | none => exact ⟨fun _ a b _ h => (nomatch h), fun _ => ⟨false, rfl⟩⟩
        | some b => simpa using withinRadius_ok_iff svc.float8 a b p q rr
  rw [hselect]
  calc (∃ out, (filterNearby svc.float8 location p q rr rows).mapError PgError.float8 = .ok out)
      ↔ ∃ out, filterNearby svc.float8 location p q rr rows = .ok out := by
        cases filterNearby svc.float8 location p q rr rows <;> simp [Except.mapError]
    _ ↔ ∀ row ∈ rows, ∃ near, nearby svc.float8 p q rr (location row) = .ok near :=
        filterNearby_ok_iff ..
    _ ↔ _ := forall₂_congr fun row _ => hrow row

theorem pageOf_ok {α : Type} {usual : ℤ} {lq : ListQuery} (hpage : Pageable usual lq)
    (rows : List α) : ∃ out, pageOf (paging 50 usual lq.page lq.limit).limit
      (paging 50 usual lq.page lq.limit).offset rows = .ok out := by
  obtain ⟨n, hlimit, hpos, hmost⟩ := paging_limit (show (1 : ℤ) ≤ 50 by decide) lq.page lq.limit
  obtain ⟨m, hm⟩ := hpage
  refine ⟨_, bind_eq_ok.mpr ⟨n.toNat, ?_, bind_eq_ok.mpr ⟨m, hm, rfl⟩⟩⟩
  rw [hlimit, readBigint, if_pos ⟨by omega, by omega⟩]

/-! ### The four reads -/

section
variable {svc : Services} {lq : ListQuery} {db : Db} {x : ℕ → Tick}

def AllMeasured (svc : Services) (lq : ListQuery) {α : Type} (location : α → Option Json)
    (rows : List α) : Prop := ∀ row ∈ rows, ∀ l, location row = some l → MeasuredFrom svc lq l

theorem countNearby_ok {α : Type} (db : Db) (hq : GeoQuery svc lq) {location : α → Option Json} {rows : List α}
    (h : AllMeasured svc lq location rows) :
    ∃ n, ((selectNearby svc.float8 location (svc.parseFloat lq.lat) (svc.parseFloat lq.lng)
      (radiusOf svc lq) rows).map (·.length)).map (·, db) = .ok (n, db) := by
  obtain ⟨out, hout⟩ := (selectNearby_ok_iff hq location rows).mpr h
  exact ⟨out.length, by rw [hout]; rfl⟩

theorem pageNearby_ok_iff {α : Type} (db : Db) (hq : GeoQuery svc lq) {location : α → Option Json}
    {rows : List α} {limit offset : JsInt} (hpage : ∀ rows : List α, ∃ out, pageOf limit offset rows = .ok out)
    (order : List α → List α) :
    (∃ out, (selectNearby svc.float8 location (svc.parseFloat lq.lat) (svc.parseFloat lq.lng)
      (radiusOf svc lq) rows >>= fun rows => pageOf limit offset (order rows)).map (·, db) =
        .ok (out, db)) ↔ AllMeasured svc lq location rows := by
  unfold AllMeasured
  rw [← selectNearby_ok_iff hq]
  constructor
  · rintro ⟨out, h⟩
    cases hselect : selectNearby svc.float8 location (svc.parseFloat lq.lat)
      (svc.parseFloat lq.lng) (radiusOf svc lq) rows with
    | error e =>
      rw [hselect] at h
      cases h
    | ok near => exact ⟨near, rfl⟩
  · rintro ⟨near, hnear⟩
    obtain ⟨out, hout⟩ := hpage (order near)
    exact ⟨out, by rw [bind_eq_ok.mpr ⟨near, hnear, hout⟩]; rfl⟩

theorem pageOf_fixed {α : Type} (n : ℤ) (hn : 0 ≤ n ∧ n < 2 ^ 63) (rows : List α) :
    ∃ out, pageOf (.int n) (.int 0) rows = .ok out :=
  ⟨_, bind_eq_ok.mpr ⟨n.toNat, if_pos hn, bind_eq_ok.mpr ⟨0, rfl, rfl⟩⟩⟩

/-- A handler of one statement inside its `try` answers 200 exactly when the statement goes through. -/
theorem single_ok_iff {q : Stmt} {r : Answer q → Response} (hr : ∀ a, (r a).status = 200)
    (hx : (x 0).fault = none) (hread : isWrite q = false) (cache : Cache) :
    ((catch500 (query q >>= fun a => pure (r a))).run (exec svc) x db cache).1.status = 200 ↔
      ∃ a, execOk svc (x 0) db q = .ok (a, db) := by
  cases hexec : execOk svc (x 0) db q with
  | error e =>
    rw [catch500_run_error _ _ hx hexec]
    simp [failure]
  | ok out =>
    obtain ⟨a, db'⟩ := out
    obtain rfl := execOk_read hread hexec
    rw [catch500_run_ok _ _ hx hexec]
    exact ⟨fun _ => ⟨a, rfl⟩, fun _ => hr a⟩

theorem getCommunitiesNearby_ok_iff (hq : GeoQuery svc lq) (hx : (x 0).fault = none) (cache : Cache) :
    ((getCommunitiesNearby svc lq).run (exec svc) x db cache).1.status = 200 ↔
      AllMeasured svc lq (·.location) db.communities := by
  unfold getCommunitiesNearby
  dsimp only
  rw [if_neg (by simp [hq.lat_number, hq.lng_number]), ← pageNearby_ok_iff db hq
    (pageOf_fixed 50 (by decide)) (newestFirst (x 0) (·.id) (·.createdAt))]
  exact single_ok_iff (fun _ => rfl) hx rfl cache

theorem getPropertiesMap_ok_iff (hq : GeoQuery svc lq) (hx : (x 0).fault = none) (cache : Cache) :
    ((getPropertiesMap svc lq).run (exec svc) x db cache).1.status = 200 ↔
      AllMeasured svc lq (·.location) db.properties := by
  unfold getPropertiesMap
  dsimp only
  rw [if_neg (by simp [hq.lat_number, hq.lng_number]), ← pageNearby_ok_iff db hq
    (pageOf_fixed 100 (by decide)) (newestFirst (x 0) (·.id) (·.createdAt))]
  exact single_ok_iff (fun _ => rfl) hx rfl cache

theorem getProperties_ok (hq : GeoQuery svc lq) (hpage : Pageable 15 lq) (hx : ∀ n, (x n).fault = none)
    (h : AllMeasured svc lq (·.location) db.properties) (cache : Cache) :
    ((getProperties svc lq).run (exec svc) x db cache).1.status = 200 := by
  obtain ⟨total, hcount⟩ := countNearby_ok db hq h
  have htotal : execOk svc (x 0) db (.countPropertiesNearby (svc.parseFloat lq.lat) (svc.parseFloat lq.lng)
      (radiusOf svc lq)) = .ok (total, db) := hcount
  obtain ⟨rows, hpage'⟩ := (pageNearby_ok_iff db hq (pageOf_ok hpage)
    (newestFirst (x 1) (·.id) (·.createdAt))).mpr h
  have hrows : execOk svc (x 1) db (.selectPropertiesNearby (svc.parseFloat lq.lat) (svc.parseFloat lq.lng)
      (radiusOf svc lq) (paging 50 15 lq.page lq.limit).limit
      (paging 50 15 lq.page lq.limit).offset) = .ok (rows, db) := hpage'
  unfold getProperties
  dsimp only
  rw [if_pos ⟨hq.lat_number, hq.lng_number⟩, catch500_run_ok _ _ (hx 0) htotal,
    catch500_run_ok (x := fun n => x (n + 1)) _ _ (hx 1) hrows]
  rfl

theorem getCommunities_ok (env : NodeEnv) (hq : GeoQuery svc lq) (hpage : Pageable 10 lq)
    (hx : ∀ n, (x n).fault = none) (h : AllMeasured svc lq (·.location) db.communities)
    (cache : Cache) : ((getCommunities svc env lq).run (exec svc) x db cache).1.status = 200 := by
  obtain ⟨total, hcount⟩ := countNearby_ok db hq h
  have htotal : execOk svc (x 0) db (.countCommunitiesNearby (svc.parseFloat lq.lat) (svc.parseFloat lq.lng)
      (radiusOf svc lq)) = .ok (total, db) := hcount
  obtain ⟨rows, hpage'⟩ := (pageNearby_ok_iff db hq (pageOf_ok hpage)
    (newestFirst (x 1) (·.id) (·.createdAt))).mpr h
  have hrows : execOk svc (x 1) db (.selectCommunitiesNearby (svc.parseFloat lq.lat) (svc.parseFloat lq.lng)
      (radiusOf svc lq) (paging 50 10 lq.page lq.limit).limit
      (paging 50 10 lq.page lq.limit).offset) = .ok (rows, db) := hpage'
  unfold getCommunities
  dsimp only
  rw [getCached_run]
  split
  · rfl
  · rw [if_pos ⟨hq.lat_number, hq.lng_number⟩, catch500_run_ok _ _ (hx 0) htotal,
      catch500_run_ok (x := fun n => x (n + 1)) _ _ (hx 1) hrows, setCache_run]

/-- **The reads by distance answer 200 exactly on measurable locations.** -/
theorem geo_ok_iff (svc : Services) (s : ServerState) :
    (∀ r, GeoRequest svc r → ∀ env x, (∀ n, (x n).fault = none) →
      (serve svc s r env x).1.status = 200) ↔ ∀ l ∈ s.db.locations, Located svc l := by
  constructor
  · intro h l hl lq hq
    have hclean : ∀ n : ℕ, ((fun _ => {} : ℕ → Tick) n).fault = none := fun _ => rfl
    rcases List.mem_append.mp hl with hl | hl
    · obtain ⟨row, hrow, hloc⟩ := List.mem_filterMap.mp hl
      exact (getCommunitiesNearby_ok_iff hq (hclean 0) s.cache).mp
        (h (.getCommunitiesNearby lq) hq ⟨0, "", 0⟩ _ hclean) row hrow l hloc
    · obtain ⟨row, hrow, hloc⟩ := List.mem_filterMap.mp hl
      exact (getPropertiesMap_ok_iff hq (hclean 0) s.cache).mp
        (h (.getPropertiesMap lq) hq ⟨0, "", 0⟩ _ hclean) row hrow l hloc
  · intro h r hr env x hx
    have hcommunities : ∀ lq, GeoQuery svc lq → AllMeasured svc lq (·.location) s.db.communities :=
      fun lq hq row hrow l hl =>
        h l (List.mem_append_left _ (List.mem_filterMap.mpr ⟨row, hrow, hl⟩)) lq hq
    have hproperties : ∀ lq, GeoQuery svc lq → AllMeasured svc lq (·.location) s.db.properties :=
      fun lq hq row hrow l hl =>
        h l (List.mem_append_right _ (List.mem_filterMap.mpr ⟨row, hrow, hl⟩)) lq hq
    cases r with
    | getCommunities lq => exact getCommunities_ok env hr.1 hr.2 hx (hcommunities lq hr.1) s.cache
    | getCommunitiesNearby lq =>
      exact (getCommunitiesNearby_ok_iff hr (hx 0) s.cache).mpr (hcommunities lq hr)
    | getProperties lq => exact getProperties_ok hr.1 hr.2 hx (hproperties lq hr.1) s.cache
    | getPropertiesMap lq => exact (getPropertiesMap_ok_iff hr (hx 0) s.cache).mpr (hproperties lq hr)
    | _ => exact hr.elim

end

/-! ### Runs -/

def storesLocated (svc : Services) (_ : ServerState) : ServerEvent → Prop
  | .request r _ _ => ∀ l, r.location = some l → Located svc l
  | .elsewhere _ => True

theorem locations_located {svc : Services} {s : ServerState}
    (h : (server svc).Reachable (storesLocated svc) s) : ∀ l ∈ s.db.locations, Located svc l := by
  refine h.invariant (fun s => ∀ l ∈ s.db.locations, Located svc l) ?_ ?_
  · rintro s₀ rfl l hl
    cases hl
  · intro s e s' hs hC hstep l hl
    cases e with
    | request r env x =>
      obtain rfl := Option.some.inj hstep
      rcases serve_locations svc s r env x hl with hl | hl
      · exact hs l hl
      · exact hC l hl
    | elsewhere users =>
      obtain rfl := Option.some.inj hstep
      exact hs l hl

/-- **The geo endpoints answer 200** to every read in range, in every state reached from the empty schema by
requests that store measurable locations. -/
theorem geo_endpoints_ok {svc : Services} {s : ServerState}
    (h : (server svc).Reachable (storesLocated svc) s) {r : ApiRequest} (hr : GeoRequest svc r)
    (env : NodeEnv) {x : ℕ → Tick} (hx : ∀ n, (x n).fault = none) :
    (serve svc s r env x).1.status = 200 :=
  (geo_ok_iff svc s).mpr (locations_located h) r hr env x hx

/-! ### A poisoned map -/

theorem exactFloat8_inRange {x : ℚ} (h : |x| ≤ 1000000) : exactFloat8.inRange x = .ok x := by
  refine if_pos (lt_of_le_of_lt h ?_)
  calc (1000000 : ℚ) < 2 ^ 20 := by norm_num
    _ ≤ 2 ^ 1024 := pow_le_pow_right₀ (by norm_num) (by norm_num)

theorem exactFloat8_cast {text : String} {x : ℚ} (h : readDecimal text = some x)
    (hx : |x| ≤ 1000000) : exactFloat8.cast text = .ok x := by
  simp only [exactFloat8]
  rw [h]
  exact exactFloat8_inRange hx

theorem exactFloat8_le {x y : ℚ} : exactFloat8.le x y = true ↔ x ≤ y := decide_eq_true_iff

theorem exactFloat8_between {lo hi text : String} {l h v : ℚ} (hb : exactFloat8.Between lo hi text)
    (hl : exactFloat8.cast lo = .ok l) (hh : exactFloat8.cast hi = .ok h)
    (hv : exactFloat8.cast text = .ok v) : l ≤ v ∧ v ≤ h := by
  obtain ⟨l', h', v', hl', hh', hv', hlv, hvh⟩ := hb
  obtain rfl := Except.ok.inj (hl'.symm.trans hl)
  obtain rfl := Except.ok.inj (hh'.symm.trans hh)
  obtain rfl := Except.ok.inj (hv'.symm.trans hv)
  exact ⟨exactFloat8_le.mp hlv, exactFloat8_le.mp hvh⟩

theorem measurable_one_two {p q : ℚ} (hp : -90 ≤ p ∧ p ≤ 90) (hq : -180 ≤ q ∧ q ≤ 180) :
    Measurable exactFloat8 "1" "2" p q := by
  have hsquare : ∀ d : ℚ, |d| ≤ 200 → |d * d| ≤ 40000 := fun d hd => by
    rw [abs_mul]
    nlinarith [abs_nonneg d]
  have hdx : |1 - p| ≤ 200 := abs_le.mpr ⟨by linarith [hp.2], by linarith [hp.1]⟩
  have hdy : |2 - q| ≤ 200 := abs_le.mpr ⟨by linarith [hq.2], by linarith [hq.1]⟩
  have hsum : |(1 - p) * (1 - p) + (2 - q) * (2 - q)| ≤ 1000000 :=
    calc |(1 - p) * (1 - p) + (2 - q) * (2 - q)|
        ≤ |(1 - p) * (1 - p)| + |(2 - q) * (2 - q)| := abs_add_le _ _
      _ ≤ 40000 + 40000 := add_le_add (hsquare _ hdx) (hsquare _ hdy)
      _ ≤ 1000000 := by norm_num
  exact ⟨_, _, _, _, _, _, _, exactFloat8_cast (x := 1) (by decide +kernel) (by norm_num),
    exactFloat8_cast (x := 2) (by decide +kernel) (by norm_num),
    exactFloat8_inRange (hdx.trans (by norm_num)), exactFloat8_inRange (hdy.trans (by norm_num)),
    exactFloat8_inRange ((hsquare _ hdx).trans (by norm_num)),
    exactFloat8_inRange ((hsquare _ hdy).trans (by norm_num)), exactFloat8_inRange hsum⟩

/-- The point `(1, 2)`. -/
def plainLocation : Json := .obj [("lat", .num "1"), ("lng", .num "2")]

theorem plainLocation_located : Located plainServices plainLocation := by
  intro lq hq a b ha hb p q hp hq'
  obtain rfl := Option.some.inj ha
  obtain rfl := Option.some.inj hb
  exact measurable_one_two
    (exactFloat8_between hq.lat (exactFloat8_cast (by decide +kernel) (by norm_num))
      (exactFloat8_cast (by decide +kernel) (by norm_num)) hp)
    (exactFloat8_between hq.lng (exactFloat8_cast (by decide +kernel) (by norm_num))
      (exactFloat8_cast (by decide +kernel) (by norm_num)) hq')

/-- A map around `(10, 20)`. -/
def aroundTen : ListQuery := { lat := some "10", lng := some "20", radius := some "5" }

theorem aroundTen_geo : GeoQuery plainServices aroundTen where
  lat_number := by decide +kernel
  lng_number := by decide +kernel
  lat := ⟨_, _, _, exactFloat8_cast (x := -90) (by decide +kernel) (by norm_num),
    exactFloat8_cast (x := 90) (by decide +kernel) (by norm_num),
    exactFloat8_cast (x := 10) (by decide +kernel) (by norm_num), by decide +kernel, by decide +kernel⟩
  lng := ⟨_, _, _, exactFloat8_cast (x := -180) (by decide +kernel) (by norm_num),
    exactFloat8_cast (x := 180) (by decide +kernel) (by norm_num),
    exactFloat8_cast (x := 20) (by decide +kernel) (by norm_num), by decide +kernel, by decide +kernel⟩
  radius := ⟨_, _, _, exactFloat8_cast (x := 0) (by decide +kernel) (by norm_num),
    exactFloat8_cast (x := 1000) (by decide +kernel) (by norm_num),
    exactFloat8_cast (x := 5) (by decide +kernel) (by norm_num), by decide +kernel, by decide +kernel⟩
  square := by
    intro r hr
    obtain rfl := Except.ok.inj ((exactFloat8_cast (x := 5) (by decide +kernel) (by norm_num)).symm.trans hr)
    exact ⟨_, exactFloat8_inRange (x := 5 * 5) (by norm_num)⟩

def listProperty (location : Json) : List ServerEvent :=
  [.request (.postAuthRegister (.obj [("email", .str "ana@x.org"), ("password", .str "correct horse")]))
      ⟨5, "t1", 0⟩ (fun n => { uuid := n + 1 }),
    .request (.postProperties (some "Bearer 1.5.ana@x.org")
      (.obj [("title", .str "Loft"), ("location", location)])) ⟨5, "", 0⟩ (fun n => { uuid := n + 7 })]

/-- The map with one property on it. -/
theorem geo_endpoints_ok_plainLocation :
    ∃ s, (server plainServices).Reachable System.Any s ∧ s.db.locations.length = 1 ∧
      (serve plainServices s (.getPropertiesMap aroundTen) ⟨5, "", 0⟩ fun _ => {}).1.status = 200 := by
  obtain ⟨s, hs, hone⟩ : ∃ s, (server plainServices).Run (storesLocated plainServices) {}
      (listProperty plainLocation) s ∧ s.db.locations.length = 1 := by
    refine ⟨_, .cons (fun l hl => (nomatch hl)) rfl (.cons (fun l hl => ?_) rfl .nil), ?_⟩
    · obtain rfl := Option.some.inj hl
      exact plainLocation_located
    · decide +kernel
  exact ⟨s, ⟨_, _, rfl, hs.mono fun _ _ _ => trivial⟩, hone,
    geo_endpoints_ok (r := .getPropertiesMap aroundTen) ⟨_, _, rfl, hs⟩ aroundTen_geo _ fun _ => rfl⟩

/-- **One property with a location that is no number answers 500 to everyone's map.** -/
theorem poisoned_map :
    ¬ ∀ (svc : Services) (s : ServerState), (server svc).Reachable System.Any s →
      ∀ r, GeoRequest svc r → ∀ env x, (∀ n, (x n).fault = none) →
        (serve svc s r env x).1.status = 200 := by
  intro hclaim
  obtain ⟨s, hs, hstatus⟩ := System.reachable_of_exec (server plainServices) (fun _ _ => true)
    (fun s => (serve plainServices s (.getPropertiesMap aroundTen) ⟨5, "", 0⟩ fun _ => {}).1.status)
    (listProperty (.obj [("lat", .str "abc"), ("lng", .str "0")])) (a := 500) rfl (by decide +kernel)
  have hok := hclaim plainServices s (hs.mono fun _ _ _ => trivial) (.getPropertiesMap aroundTen)
    aroundTen_geo ⟨5, "", 0⟩ (fun _ => {}) fun _ => rfl
  omega

end Locus.Server
