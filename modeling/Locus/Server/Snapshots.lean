import Locus.Lib.Histories
import Locus.Server.ListCache
import Locus.Server.Pages
import Locus.Server.Requests

/-!
# The total and the page of a list

`GET /communities`, `GET /properties` and `GET /notifications` count the rows of the list with one statement and read
the page with a second one. Nothing holds the two together: rows that are inserted in between are on the page and not
in `total` (`late_row`).

What holds in every interleaving is that `total` is the number of rows where the request's COUNT is answered, and the
page is that of the table where its SELECT is (`list_moments`); a response from the cache is that of the request that
stored it. As rows are only added, the page is never shorter than `total` makes it, and it is as long when no row comes
between the two statements.
-/

namespace Locus.Server

open Lib (Prog Pool PoolEvent System)
open Lib.Paging (page length_page)

/-! ### Lists -/

inductive ListCall
  | communities (q : ListQuery)
  | properties (q : ListQuery)
  | notifications (authorization page limit : Option String)

def ListCall.request : ListCall → ApiRequest
  | communities q => .getCommunities q
  | properties q => .getProperties q
  | notifications authorization page limit => .getNotifications authorization page limit

/-- The rows that a list is about. -/
inductive Listing
  | communities (lat lng radius : String)
  | properties (lat lng radius : String)
  | notifications (u : Uuid)

def Listing.size (svc : Services) (db : Db) : Listing → Except PgError ℕ
  | communities lat lng radius =>
    if lat ≠ "NaN" ∧ lng ≠ "NaN" then
      (selectNearby svc.float8 (·.location) lat lng radius db.communities).map (·.length)
    else .ok db.communities.length
  | properties lat lng radius =>
    if lat ≠ "NaN" ∧ lng ≠ "NaN" then
      (selectNearby svc.float8 (·.location) lat lng radius db.properties).map (·.length)
    else .ok db.properties.length
  | notifications u => .ok (notificationsOf db u).length

def Listing.count : Listing → Stmt
  | communities lat lng radius =>
    if lat ≠ "NaN" ∧ lng ≠ "NaN" then .countCommunitiesNearby lat lng radius else .countCommunities
  | properties lat lng radius =>
    if lat ≠ "NaN" ∧ lng ≠ "NaN" then .countPropertiesNearby lat lng radius else .countProperties
  | notifications u => .countNotifications u

/-- The statement that reads a page of them. -/
def Listing.select (limit offset : JsInt) : Listing → Stmt
  | communities lat lng radius =>
    if lat ≠ "NaN" ∧ lng ≠ "NaN" then .selectCommunitiesNearby lat lng radius limit offset
    else .selectCommunities limit offset
  | properties lat lng radius =>
    if lat ≠ "NaN" ∧ lng ≠ "NaN" then .selectPropertiesNearby lat lng radius limit offset
    else .selectProperties limit offset
  | notifications u => .selectNotifications u limit offset

/-- The list of a request; none when nobody is signed in who could have notifications. -/
def ListCall.listing (svc : Services) (env : NodeEnv) : ListCall → Option Listing
  | communities q => some (.communities (svc.parseFloat q.lat) (svc.parseFloat q.lng) (radiusOf svc q))
  | properties q => some (.properties (svc.parseFloat q.lat) (svc.parseFloat q.lng) (radiusOf svc q))
  | notifications authorization _ _ => (authenticate svc env authorization).map fun user => .notifications user.id

/-- `total`, `page` and `limit` of a response, and the number of rows in its `data`. -/
structure Counts where
  total : ℕ
  page : JsInt
  limit : JsInt
  rows : ℕ
deriving DecidableEq

def Page.counts {α : Type} (page : Page α) : Counts := ⟨page.total, page.page, page.limit, page.data.length⟩

def Body.counts : Body → Option Counts
  | .communityPage page => some page.counts
  | .propertyPage page => some page.counts
  | .notificationPage page => some page.counts
  | _ => none

/-- `data` is as long as page `p` of `total` rows. -/
def Counts.Of (c : Counts) (total : ℕ) : Prop :=
  ∃ p limit : ℕ, 1 ≤ p ∧ 1 ≤ limit ∧ c.page = .int p ∧ c.limit = .int limit ∧
    c.rows = min limit (total - (p - 1) * limit)

theorem counts_of {α : Type} {most usual : ℤ} (hmost : 1 ≤ most) (hmost' : most < 2 ^ 53) {p limit : Option String}
    {total : ℕ} {rows data : List α} (hrows : rows.length ≤ 2 ^ 53)
    (hdata : pageOf (paging most usual p limit).limit (paging most usual p limit).offset rows = .ok data) :
    Counts.Of ⟨total, (paging most usual p limit).page, (paging most usual p limit).limit, data.length⟩
      rows.length := by
  obtain ⟨n, hlimit, hpos, hn⟩ := @paging_limit most usual hmost p limit
  lift n to ℕ using by omega
  have hoffset : (paging most usual p limit).offset =
      (paging most usual p limit).page.offset (paging most usual p limit).limit := rfl
  rw [hoffset, hlimit, pageOf_eq (by omega)] at hdata
  obtain hinf | ⟨k, hk, hkpos⟩ := paging_page most usual p limit
  · rw [hinf] at hdata
    cases hdata
  · rw [hk] at hdata ⊢
    cases hread : readBigint ((JsInt.int k).offset (.int n)) with
    | error e =>
      rw [hread] at hdata
      cases hdata
    | ok m =>
      rw [hread] at hdata
      obtain rfl := Except.ok.inj hdata
      refine ⟨k, n, hkpos, by omega, rfl, hlimit, ?_⟩
      show (page m n rows).length = _
      rw [length_page, offset_sub hkpos (by omega) hread hrows]

/-! ### Requests and insertions -/

/-- A step of a request, or rows that are inserted into the listed tables. -/
inductive ListEvent (ι : Type)
  | request (e : PoolEvent ι Tick)
  | insert (communities : List CommunityRow) (properties : List PropertyRow) (notifications : List NotificationRow)

/-- The tables with more rows. -/
def insertRows (db : Db) (communities : List CommunityRow) (properties : List PropertyRow)
    (notifications : List NotificationRow) : Db :=
  { db with
    communities := db.communities ++ communities
    properties := db.properties ++ properties
    notifications := db.notifications ++ notifications }

section
variable {ι : Type} [DecidableEq ι] (svc : Services) (env : ι → NodeEnv) (req : ι → ListCall)

/-- List requests on one server process whose cache is empty at first, and insertions between any two statements. -/
def lists : System (RequestPool ι) (ListEvent ι) where
  Init s := s.mem = [] ∧ ∀ i, s.thread i = .idle
  step s
    | .request e => Pool.step (fun i => (req i).request.handler svc (env i)) (exec svc) s e
    | .insert communities properties notifications =>
      some { s with db := insertRows s.db communities properties notifications }

end

/-! ### What a response tells -/

section
variable (svc : Services)

/-- The calls have counted the list and read a page of it, and `c` is what they were answered. -/
structure ReadAs (l : Listing) (c : Counts) (call₁ call₂ : StmtCall) : Prop where
  count : call₁.query = l.count
  select : call₂.query = l.select c.limit (c.page.offset c.limit)
  total : ∀ x d, (exec svc x d call₁.query).1 = call₁.answer → l.size svc d = .ok c.total
  page : ∀ x d, (exec svc x d call₂.query).1 = call₂.answer → ∃ n, l.size svc d = .ok n ∧ (n ≤ 2 ^ 53 → c.Of n)

variable {svc} {log : List StmtCall} {p : Handler}

/-- Where a handler is that counts and reads a page, and whose response is a page. -/
theorem catch500_two_path (q₁ q₂ : Stmt) {f : Answer q₁ → Answer q₂ → HandlerM Response} {r : Response}
    (h : (catch500 (query q₁ >>= fun a => query q₂ >>= fun b => f a b)).Path log (.done r)) (h200 : r.status = 200) :
    ∃ a b log', log = ⟨q₁, .ok a⟩ :: ⟨q₂, .ok b⟩ :: log' ∧ (catch500 (f a b)).Path log' (.done r) := by
  obtain ⟨-, hawaits⟩ | ⟨a, log₁, rfl, h₁⟩ | ⟨err, -, hdone⟩ := catch500_path h
  · exact (not_awaits_done hawaits).elim
  · obtain ⟨-, hawaits⟩ | ⟨b, log₂, rfl, h₂⟩ | ⟨err, -, hdone⟩ := catch500_path h₁
    · exact (not_awaits_done hawaits).elim
    · exact ⟨a, b, log₂, rfl, h₂⟩
    · cases hdone
      cases h200
  · cases hdone
    cases h200

theorem readAs_of {α : Type} (l : Listing) (rows : Db → Except PgError (List α))
    (hsize : ∀ d, l.size svc d = (rows d).map (·.length)) {id : α → Uuid} {createdAt : α → Time} {most usual : ℤ}
    (hmost : 1 ≤ most) (hmost' : most < 2 ^ 53) {p limit : Option String} {q₁ q₂ : Stmt} {a : Answer q₁} {b : Answer q₂}
    {total : ℕ} {data : List α} (hq₁ : q₁ = l.count)
    (hq₂ : q₂ = l.select (paging most usual p limit).limit (paging most usual p limit).offset)
    (htotal : ∀ x d d', execOk svc x d q₁ = .ok (a, d') → (rows d).map (·.length) = .ok total)
    (hdata : ∀ x d d', execOk svc x d q₂ = .ok (b, d') → (rows d >>= fun rows =>
      pageOf (paging most usual p limit).limit (paging most usual p limit).offset (newestFirst x id createdAt rows)) =
        .ok data) :
    ReadAs svc l (Page.counts ⟨data, total, (paging most usual p limit).page, (paging most usual p limit).limit⟩)
      ⟨q₁, .ok a⟩ ⟨q₂, .ok b⟩ := by
  refine ⟨hq₁, hq₂, fun x d hanswer => ?_, fun x d hanswer => ?_⟩
  · obtain ⟨d', hok⟩ := exec_ok hanswer
    exact (hsize d).trans (htotal x d d' hok)
  · obtain ⟨d', hok⟩ := exec_ok hanswer
    obtain ⟨all, hall, hpage⟩ := bind_eq_ok.mp (hdata x d d' hok)
    have hlength := (newestFirst_perm x id createdAt all).length_eq
    refine ⟨all.length, by rw [hsize, hall]; rfl, fun hsmall => ?_⟩
    rw [← hlength] at hsmall ⊢
    exact counts_of hmost hmost' hsmall hpage

theorem getProperties_reads {q : ListQuery} {r : Response} (h : (getProperties svc q).Path log (.done r))
    (h200 : r.status = 200) : ∃ c count select, log = [count, select] ∧ r.body.counts = some c ∧
      ReadAs svc (.properties (svc.parseFloat q.lat) (svc.parseFloat q.lng) (radiusOf svc q)) c count select := by
  unfold getProperties at h
  dsimp only at h
  split at h
  · rename_i hpoint
    obtain ⟨total, data, log', rfl, hend⟩ := catch500_two_path (.countPropertiesNearby ..)
      (.selectPropertiesNearby ..) h h200
    obtain ⟨rfl, hr⟩ := catch500_pure_path hend
    cases hr
    exact ⟨_, _, _, rfl, rfl, readAs_of (.properties _ _ _) _ (fun d => if_pos hpoint) (by decide) (by decide)
      (if_pos hpoint).symm (if_pos hpoint).symm (fun _ _ _ hok => ok_of_map hok) fun _ _ _ hok => ok_of_map hok⟩
  · rename_i hplain
    obtain ⟨total, data, log', rfl, hend⟩ := catch500_two_path (.countProperties) (.selectProperties ..)
      h h200
    obtain ⟨rfl, hr⟩ := catch500_pure_path hend
    cases hr
    exact ⟨_, _, _, rfl, rfl, readAs_of (.properties _ _ _) (fun d => .ok d.properties) (fun d => if_neg hplain)
      (by decide) (by decide) (if_neg hplain).symm (if_neg hplain).symm (fun _ _ _ hok => ok_of_map hok)
      fun _ _ _ hok => ok_of_map hok⟩

theorem getNotifications_reads {env : NodeEnv} {authorization page limit : Option String} {r : Response}
    (h : (getNotifications svc env authorization page limit).Path log (.done r)) (h200 : r.status = 200) :
    ∃ user c count select, authenticate svc env authorization = some user ∧ log = [count, select] ∧
      r.body.counts = some c ∧ ReadAs svc (.notifications user.id) c count select := by
  unfold getNotifications at h
  cases huser : authenticate svc env authorization with
  | none =>
    obtain ⟨text, hdone⟩ := authMiddleware_none svc env _ huser
    rw [hdone] at h
    obtain ⟨-, hr⟩ := Prog.path_done.mp h
    cases hr
    cases h200
  | some user =>
    rw [authMiddleware_some svc env _ huser] at h
    obtain ⟨total, data, log', rfl, hend⟩ := catch500_two_path (.countNotifications user.id)
      (.selectNotifications user.id _ _) h h200
    obtain ⟨rfl, hr⟩ := catch500_pure_path hend
    cases hr
    exact ⟨user, _, _, _, rfl, rfl, rfl, readAs_of (.notifications user.id) (fun d => .ok (notificationsOf d user.id))
      (fun _ => rfl) (by decide) (by decide) rfl rfl (fun _ _ _ hok => ok_of_map hok) fun _ _ _ hok => ok_of_map hok⟩

theorem setCache_path {now : Time} {key : CacheKey} {page : Page CommunityRow} {r : Response}
    (h : (catch500 (setCache now key page >>= fun _ => pure ⟨200, .communityPage page⟩)).Path log (.done r)) :
    log = [] ∧ r = ⟨200, .communityPage page⟩ := by
  change (Prog.read fun cache : Cache => Prog.write ((key, ⟨page, now⟩) :: cache.filter fun e => e.1 ≠ key)
    (Prog.done (⟨200, .communityPage page⟩ : Response))).Path log (.done r) at h
  cases h with
  | read m h =>
    cases h with
    | write h =>
      obtain ⟨rfl, hr⟩ := Prog.path_done.mp h
      exact ⟨rfl, Prog.done.inj hr⟩

theorem getCommunities_reads {env : NodeEnv} {q : ListQuery} {r : Response}
    (h : (getCommunities svc env q).Path log (.done r)) (h200 : r.status = 200) (hlog : log ≠ []) :
    ∃ c count select, log = [count, select] ∧ r.body.counts = some c ∧
      ReadAs svc (.communities (svc.parseFloat q.lat) (svc.parseFloat q.lng) (radiusOf svc q)) c count select := by
  unfold getCommunities at h
  dsimp only at h
  obtain ⟨cached, h⟩ := getCached_path h
  cases cached with
  | some page => exact absurd (Prog.path_done.mp h).1 hlog
  | none =>
    dsimp only at h
    split at h
    · rename_i hpoint
      obtain ⟨total, data, log', rfl, hend⟩ := catch500_two_path (.countCommunitiesNearby ..)
        (.selectCommunitiesNearby ..) h h200
      obtain ⟨rfl, rfl⟩ := setCache_path hend
      exact ⟨_, _, _, rfl, rfl, readAs_of (.communities _ _ _) _ (fun d => if_pos hpoint) (by decide) (by decide)
        (if_pos hpoint).symm (if_pos hpoint).symm (fun _ _ _ hok => ok_of_map hok) fun _ _ _ hok => ok_of_map hok⟩
    · rename_i hplain
      obtain ⟨total, data, log', rfl, hend⟩ := catch500_two_path (.countCommunities)
        (.selectCommunities ..) h h200
      obtain ⟨rfl, rfl⟩ := setCache_path hend
      exact ⟨_, _, _, rfl, rfl, readAs_of (.communities _ _ _) (fun d => .ok d.communities) (fun d => if_neg hplain)
        (by decide) (by decide) (if_neg hplain).symm (if_neg hplain).symm (fun _ _ _ hok => ok_of_map hok)
        fun _ _ _ hok => ok_of_map hok⟩

theorem ListCall.reads {env : NodeEnv} {call : ListCall} {r : Response}
    (h : (call.request.handler svc env).Path log (.done r)) (h200 : r.status = 200) (hlog : log ≠ []) :
    ∃ l c count select, call.listing svc env = some l ∧ log = [count, select] ∧ r.body.counts = some c ∧
      ReadAs svc l c count select := by
  cases call with
  | communities q => exact ⟨_, (getCommunities_reads h h200 hlog).imp fun _ ⟨count, select, h⟩ => ⟨count, select, rfl, h⟩⟩
  | properties q => exact ⟨_, (getProperties_reads h h200).imp fun _ ⟨count, select, h⟩ => ⟨count, select, rfl, h⟩⟩
  | notifications authorization page limit =>
    obtain ⟨user, c, count, select, huser, h⟩ := getNotifications_reads h h200
    exact ⟨_, c, count, select, by rw [listing, huser]; rfl, h⟩

end

/-! ### The tables -/

/-- The tables have their rows, and perhaps more. -/
def Grown (d d' : Db) : Prop := ∃ communities properties notifications,
  d'.communities = d.communities ++ communities ∧ d'.properties = d.properties ++ properties ∧
    d'.notifications = d.notifications ++ notifications

theorem Grown.refl (d : Db) : Grown d d := ⟨[], [], [], by simp⟩

theorem Grown.trans {d d' d'' : Db} (h : Grown d d') (h' : Grown d' d'') : Grown d d'' := by
  obtain ⟨c, p, n, hc, hp, hn⟩ := h
  obtain ⟨c', p', n', hc', hp', hn'⟩ := h'
  refine ⟨c ++ c', p ++ p', n ++ n', ?_, ?_, ?_⟩
  · rw [hc', hc, List.append_assoc]
  · rw [hp', hp, List.append_assoc]
  · rw [hn', hn, List.append_assoc]

theorem selectNearby_append {α : Type} {f : Float8} {location : α → Option Json} {lat lng radius : String}
    {rows more out out' : List α} (h : selectNearby f location lat lng radius rows = .ok out)
    (h' : selectNearby f location lat lng radius (rows ++ more) = .ok out') : out.length ≤ out'.length := by
  obtain ⟨p, q, r, rr, hp, hq, hr, hrr, hfilter⟩ := selectNearby_eq_ok.mp h
  obtain ⟨p', q', r', rr', hp', hq', hr', hrr', hfilter'⟩ := selectNearby_eq_ok.mp h'
  obtain rfl := Except.ok.inj (hp.symm.trans hp')
  obtain rfl := Except.ok.inj (hq.symm.trans hq')
  obtain rfl := Except.ok.inj (hr.symm.trans hr')
  obtain rfl := Except.ok.inj (hrr.symm.trans hrr')
  rw [(filterNearby_eq_ok.mp hfilter).2, (filterNearby_eq_ok.mp hfilter').2, List.filter_append, List.length_append]
  exact Nat.le_add_right ..

variable {svc : Services} {d d' : Db} {l : Listing} {n n' : ℕ}

theorem length_of_map {α : Type} {rows : Except PgError (List α)} (h : rows.map (·.length) = .ok n) :
    ∃ out, rows = .ok out ∧ out.length = n := by
  cases rows with
  | error e => cases h
  | ok out => exact ⟨out, rfl, Except.ok.inj h⟩

theorem Listing.size_le (h : Grown d d') (hn : l.size svc d = .ok n) (hn' : l.size svc d' = .ok n') : n ≤ n' := by
  obtain ⟨c, p, m, hc, hp, hm⟩ := h
  cases l with
  | communities lat lng radius =>
    simp only [size] at hn hn'
    split at hn
    · rename_i hpoint
      rw [if_pos hpoint, hc] at hn'
      obtain ⟨out, hout, rfl⟩ := length_of_map hn
      obtain ⟨out', hout', rfl⟩ := length_of_map hn'
      exact selectNearby_append hout hout'
    · rename_i hplain
      rw [if_neg hplain, hc] at hn'
      obtain rfl := Except.ok.inj hn
      obtain rfl := Except.ok.inj hn'
      simp
  | properties lat lng radius =>
    simp only [size] at hn hn'
    split at hn
    · rename_i hpoint
      rw [if_pos hpoint, hp] at hn'
      obtain ⟨out, hout, rfl⟩ := length_of_map hn
      obtain ⟨out', hout', rfl⟩ := length_of_map hn'
      exact selectNearby_append hout hout'
    · rename_i hplain
      rw [if_neg hplain, hp] at hn'
      obtain rfl := Except.ok.inj hn
      obtain rfl := Except.ok.inj hn'
      simp
  | notifications u =>
    obtain rfl := Except.ok.inj hn
    obtain rfl := Except.ok.inj hn'
    simp [notificationsOf, hm]

/-- No table has more than `2 ^ 53` rows. -/
def Small (d : Db) : Prop :=
  d.communities.length ≤ 2 ^ 53 ∧ d.properties.length ≤ 2 ^ 53 ∧ d.notifications.length ≤ 2 ^ 53

theorem Small.of_grown (h : Grown d d') (hd' : Small d') : Small d := by
  obtain ⟨c, p, m, hc, hp, hm⟩ := h
  unfold Small at hd' ⊢
  rw [hc, hp, hm, List.length_append, List.length_append, List.length_append] at hd'
  omega

theorem Small.size (hd : Small d) (hn : l.size svc d = .ok n) : n ≤ 2 ^ 53 := by
  cases l with
  | communities lat lng radius =>
    simp only [Listing.size] at hn
    split at hn
    · obtain ⟨out, hout, rfl⟩ := length_of_map hn
      exact (selectNearby_sublist hout).length_le.trans hd.1
    · obtain rfl := Except.ok.inj hn
      exact hd.1
  | properties lat lng radius =>
    simp only [Listing.size] at hn
    split at hn
    · obtain ⟨out, hout, rfl⟩ := length_of_map hn
      exact (selectNearby_sublist hout).length_le.trans hd.2.1
    · obtain rfl := Except.ok.inj hn
      exact hd.2.1
  | notifications u =>
    obtain rfl := Except.ok.inj hn
    exact (List.length_filter_le ..).trans hd.2.2

/-! ### Runs -/

theorem ListCall.sends (env : NodeEnv) (c : ListCall) :
    (c.request.handler svc env).Sends fun q => isWrite q = false := by
  cases c with
  | communities q =>
    refine getCached_sends fun cached => ?_
    cases cached with
    | some page => trivial
    | none =>
      dsimp only
      split
      · exact catch500_sends rfl fun _ => catch500_sends rfl fun _ => setCache_sends _
      · exact catch500_sends rfl fun _ => catch500_sends rfl fun _ => setCache_sends _
  | properties q =>
    show (getProperties svc q).Sends _
    unfold getProperties
    dsimp only
    split
    · exact catch500_sends rfl fun _ => catch500_sends rfl fun _ => trivial
    · exact catch500_sends rfl fun _ => catch500_sends rfl fun _ => trivial
  | notifications authorization page limit =>
    exact authMiddleware_sends svc env fun user _ => catch500_sends rfl fun _ => catch500_sends rfl fun _ => trivial

section
variable {ι : Type} [DecidableEq ι] {svc : Services} {env : ι → NodeEnv} {req : ι → ListCall}

/-- A request writes no table, an insertion adds to the tables. -/
theorem lists_step {s s' : RequestPool ι} {e : ListEvent ι}
    (hpath : Pool.OnPath (fun i => (req i).request.handler svc (env i)) s)
    (h : (lists svc env req).step s e = some s') :
    Pool.OnPath (fun i => (req i).request.handler svc (env i)) s' ∧ Grown s.db s'.db ∧
      ((∃ e', e = .request e') → s'.db = s.db) := by
  cases e with
  | request e =>
    have hdb : s'.db = s.db := by
      obtain ⟨i, -, -, rfl⟩ | ⟨i, x, q, k, log, -, hi, rfl⟩ := Pool.step_cases h
      · rfl
      · exact exec_read svc x s.db ((hpath i _ _ hi).1.always ((req i).sends (env i))).1
    exact ⟨Pool.onPath_step hpath h, hdb ▸ Grown.refl s.db, fun _ => hdb⟩
  | insert communities properties notifications =>
    obtain rfl := Option.some.inj h
    refine ⟨hpath, ⟨communities, properties, notifications, rfl, rfl, rfl⟩, ?_⟩
    rintro ⟨e', he'⟩
    cases he'

theorem lists_run {s s' : RequestPool ι} {tr : List (ListEvent ι)}
    (hpath : Pool.OnPath (fun i => (req i).request.handler svc (env i)) s)
    (h : (lists svc env req).Run System.Any s tr s') :
    Pool.OnPath (fun i => (req i).request.handler svc (env i)) s' ∧ Grown s.db s'.db ∧
      ((∀ e ∈ tr, ∃ e', e = .request e') → s'.db = s.db) := by
  refine h.history (fun tr s' => Pool.OnPath (fun i => (req i).request.handler svc (env i)) s' ∧ Grown s.db s'.db ∧
    ((∀ e ∈ tr, ∃ e', e = .request e') → s'.db = s.db)) ⟨hpath, Grown.refl s.db, fun _ => rfl⟩ ?_
  rintro tr s₁ e s₂ ⟨hpath₁, hgrown, hsame⟩ - hstep
  obtain ⟨hpath₂, hgrown', hsame'⟩ := lists_step hpath₁ hstep
  refine ⟨hpath₂, hgrown.trans hgrown', fun hall => ?_⟩
  rw [hsame' (hall e (by simp)), hsame fun e he => hall e (List.mem_append_left _ he)]

theorem lists_interleaves : Lib.Interleaves (lists svc env req) (fun i => (req i).request.handler svc (env i)) (exec svc)
    .request := by
  intro s e s' hstep
  cases e with
  | request e => exact .inl ⟨e, rfl, hstep⟩
  | insert communities properties notifications => exact .inr ⟨_, (Option.some.inj hstep).symm⟩

/-! #### The cache -/

/-- `r` is the response of a request for the communities of `key`, and that request has read it itself. -/
def ReadBy (svc : Services) (req : ι → ListCall) (s : RequestPool ι) (key : CacheKey) (r : Response) : Prop :=
  ∃ j q log, req j = .communities q ∧ keyOf svc q = key ∧ s.thread j = .live (.done r) log ∧ log ≠ []

/-- Behind the first events `tr'` of the run, in the state `t`, request `i` starts and the cache has `r` under its key. -/
structure Hits (svc : Services) (env : ι → NodeEnv) (req : ι → ListCall) (s₀ : RequestPool ι)
    (tr : List (ListEvent ι)) (i : ι) (r : Response) (q : ListQuery) (tr' : List (ListEvent ι)) (t : RequestPool ι) :
    Prop where
  starts : ∃ after, tr = tr' ++ .request (.start i) :: after
  run : (lists svc env req).Run System.Any s₀ tr' t
  request : req i = .communities q
  cached : ∃ page ts, (keyOf svc q, ⟨page, ts⟩) ∈ t.mem ∧ r = ⟨200, .communityPage page⟩

theorem Hits.snoc {s₀ t : RequestPool ι} {tr tr' : List (ListEvent ι)} {i : ι} {r : Response} {q : ListQuery}
    (h : Hits svc env req s₀ tr i r q tr' t) (e : ListEvent ι) : Hits svc env req s₀ (tr ++ [e]) i r q tr' t := by
  obtain ⟨after, rfl⟩ := h.starts
  exact ⟨⟨after ++ [e], by simp⟩, h.run, h.request, h.cached⟩

/-- What is in the cache is the response of a request that has read it, and so was what is answered without a
statement where its request started. -/
structure Stored (svc : Services) (env : ι → NodeEnv) (req : ι → ListCall) (s₀ : RequestPool ι)
    (tr : List (ListEvent ι)) (s : RequestPool ι) : Prop where
  mem : ∀ e ∈ s.mem, ReadBy svc req s e.1 ⟨200, .communityPage e.2.data⟩
  thread : ∀ i r, s.thread i = .live (.done r) [] → r.status = 200 →
    ∃ q tr' t, Hits svc env req s₀ tr i r q tr' t ∧ ReadBy svc req t (keyOf svc q) r

/-- Before its first statement a request adds nothing to the cache, and what it answers then is from the cache. -/
theorem ListCall.settle (svc : Services) (env : NodeEnv) (call : ListCall) (cache : Cache) :
    (∀ e ∈ ((call.request.handler svc env).settle cache).1, e ∈ cache) ∧
    ∀ r, ((call.request.handler svc env).settle cache).2 = .done r → r.status = 200 →
      ∃ q ts page, call = .communities q ∧ (keyOf svc q, ⟨page, ts⟩) ∈ cache ∧ r = ⟨200, .communityPage page⟩ := by
  cases call with
  | communities q =>
    obtain ⟨hrest, hfound⟩ := lookupCache_forall (P := (· ∈ cache)) (fun _ => id) env.now (keyOf svc q)
    have hsettle : ∀ f : Option (Page CommunityRow) → HandlerM Response,
        (catch500 (getCached env.now (keyOf svc q) >>= f)).settle cache =
          (catch500 (f (lookupCache env.now (keyOf svc q) cache).1)).settle
            (lookupCache env.now (keyOf svc q) cache).2 := fun _ => rfl
    dsimp only [ListCall.request, ApiRequest.handler, getCommunities]
    dsimp only [keyOf] at hsettle hrest hfound ⊢
    rw [hsettle]
    cases hlookup : (lookupCache env.now ⟨svc.parseFloat q.lat, svc.parseFloat q.lng, radiusOf svc q,
        (paging 50 10 q.page q.limit).page, (paging 50 10 q.page q.limit).limit⟩ cache).1 with
    | some page =>
      obtain ⟨ts, hentry⟩ := hfound page hlookup
      refine ⟨hrest, ?_⟩
      rintro r ⟨⟩ -
      exact ⟨q, ts, page, rfl, hentry, rfl⟩
    | none =>
      dsimp only
      split
      · exact ⟨hrest, fun r hr => by cases hr⟩
      · exact ⟨hrest, fun r hr => by cases hr⟩
  | properties q =>
    dsimp only [ListCall.request, ApiRequest.handler, getProperties]
    split
    · exact ⟨fun _ => id, fun r hr => by cases hr⟩
    · exact ⟨fun _ => id, fun r hr => by cases hr⟩
  | notifications authorization p limit =>
    refine authMiddleware_cases (P := fun h : Handler => (∀ e ∈ (h.settle cache).1, e ∈ cache) ∧
      ∀ r, (h.settle cache).2 = .done r → r.status = 200 → ∃ q ts page, ListCall.notifications authorization p limit =
        .communities q ∧ (keyOf svc q, ⟨page, ts⟩) ∈ cache ∧ r = ⟨200, .communityPage page⟩) svc env
      (fun text => ⟨fun _ => id, ?_⟩) fun user _ => ?_
    · rintro r ⟨⟩ h200
      cases h200
    · exact ⟨fun _ => id, fun r hr => by cases hr⟩

/-- Behind a statement a request leaves the cache alone, or stores the response that it sends. -/
def Keeps (svc : Services) (call : ListCall) (p : Handler) : Prop :=
  ∀ cache, (p.settle cache).1 = cache ∨
    ∃ q page ts, call = .communities q ∧ (p.settle cache).2 = .done ⟨200, .communityPage page⟩ ∧
      (p.settle cache).1 = (keyOf svc q, ⟨page, ts⟩) :: cache.filter fun e => e.1 ≠ keyOf svc q

theorem keeps_pages {call : ListCall} (q₁ q₂ : Stmt) {f : Answer q₁ → Answer q₂ → HandlerM Response}
    (h : ∀ a b, Keeps svc call (catch500 (f a b)) ∧ (catch500 (f a b)).Points (Keeps svc call)) :
    (catch500 (query q₁ >>= fun a => query q₂ >>= fun b => f a b)).Points (Keeps svc call) :=
  Prog.tryCatch_points
    (fun a => ⟨fun _ => .inl rfl, Prog.tryCatch_points (fun b => h a b) fun _ => ⟨fun _ => .inl rfl, trivial⟩⟩)
    fun _ => ⟨fun _ => .inl rfl, trivial⟩

theorem ListCall.keeps (env : NodeEnv) (call : ListCall) :
    (call.request.handler svc env).Points (Keeps svc call) := by
  cases call with
  | communities q =>
    have hcached : ∀ {key : CacheKey} {f : Option (Page CommunityRow) → HandlerM Response},
        (∀ r, (catch500 (f r)).Points (Keeps svc (.communities q))) →
        (catch500 (getCached env.now key >>= f)).Points (Keeps svc (.communities q)) := fun h _ => h _
    refine hcached fun cached => ?_
    cases cached with
    | some page => trivial
    | none =>
      dsimp only
      split
      · exact keeps_pages (.countCommunitiesNearby ..) (.selectCommunitiesNearby ..) fun total data =>
          ⟨fun cache => .inr ⟨q, _, _, rfl, rfl, rfl⟩, fun _ => trivial⟩
      · exact keeps_pages (.countCommunities) (.selectCommunities ..) fun total data =>
          ⟨fun cache => .inr ⟨q, _, _, rfl, rfl, rfl⟩, fun _ => trivial⟩
  | properties q =>
    dsimp only [ListCall.request, ApiRequest.handler, getProperties]
    split
    · exact keeps_pages (.countPropertiesNearby ..) (.selectPropertiesNearby ..) fun _ _ =>
        ⟨fun _ => .inl rfl, trivial⟩
    · exact keeps_pages (.countProperties) (.selectProperties ..) fun _ _ => ⟨fun _ => .inl rfl, trivial⟩
  | notifications authorization page limit =>
    exact authMiddleware_induction svc env authorization (fun _ => trivial) fun user =>
      keeps_pages (.countNotifications user.id) (.selectNotifications user.id _ _) fun _ _ =>
        ⟨fun _ => .inl rfl, trivial⟩

theorem ReadBy.step {s s' : RequestPool ι} {e : ListEvent ι} (hstep : (lists svc env req).step s e = some s')
    {key : CacheKey} {r : Response} (h : ReadBy svc req s key r) : ReadBy svc req s' key r := by
  obtain ⟨j, q, log, hj, hkey, hdone, hlog⟩ := h
  exact ⟨j, q, log, hj, hkey, lists_interleaves.done_stays hstep hdone, hlog⟩

theorem stored_step {s₀ s s' : RequestPool ι} {tr : List (ListEvent ι)} {e : ListEvent ι}
    (hrun : (lists svc env req).Run System.Any s₀ tr s)
    (hpath : Pool.OnPath (fun i => (req i).request.handler svc (env i)) s) (hs : Stored svc env req s₀ tr s)
    (hstep : (lists svc env req).step s e = some s') : Stored svc env req s₀ (tr ++ [e]) s' := by
  have hread : ∀ {key r}, ReadBy svc req s key r → ReadBy svc req s' key r := ReadBy.step hstep
  have hold : ∀ j r, s.thread j = .live (.done r) [] → r.status = 200 →
      ∃ q tr' t, Hits svc env req s₀ (tr ++ [e]) j r q tr' t ∧ ReadBy svc req t (keyOf svc q) r := by
    intro j r hj h200
    obtain ⟨q, tr', t, hhits, hreadBy⟩ := hs.thread j r hj h200
    exact ⟨q, tr', t, hhits.snoc e, hreadBy⟩
  obtain ⟨e', rfl, h⟩ | ⟨d, rfl⟩ := lists_interleaves s e s' hstep
  · obtain ⟨i, rfl, -, rfl⟩ | ⟨i, x, q, k, log, -, hi, rfl⟩ := Pool.step_cases h
    · obtain ⟨hmem, hdone⟩ := ListCall.settle svc (env i) (req i) s.mem
      refine ⟨fun e he => hread (hs.mem e (hmem e he)), fun j r hj h200 => ?_⟩
      by_cases hji : j = i
      · subst hji
        rw [Pool.goto_self] at hj
        obtain ⟨q, ts, page, hreq, hentry, hr⟩ := hdone r (by injection hj) h200
        exact ⟨q, tr, s, ⟨⟨[], rfl⟩, hrun, hreq, page, ts, hentry, hr⟩, hr ▸ hs.mem _ hentry⟩
      · rw [Pool.goto_other _ hji] at hj
        exact hold j r hj h200
    · have hkeeps := ((hpath i _ _ hi).1.always ((req i).keeps (env i))).1 (exec svc x s.db q).1 s.mem
      refine ⟨fun e he => ?_, fun j r hj h200 => ?_⟩
      · have hentry : e ∈ ((k (exec svc x s.db q).1).settle s.mem).1 := he
        obtain hmem | ⟨lq, page, ts, hreq, hdone, hmem⟩ := hkeeps
        · exact hread (hs.mem e (hmem ▸ hentry))
        · rw [hmem] at hentry
          rcases List.mem_cons.mp hentry with rfl | he
          · exact ⟨i, lq, _, hreq, rfl, by rw [Pool.goto_self, hdone], by simp⟩
          · exact hread (hs.mem e (List.mem_of_mem_filter he))
      · by_cases hji : j = i
        · subst hji
          rw [Pool.goto_self] at hj
          injection hj with _ hlog
          simp at hlog
        · rw [Pool.goto_other _ hji] at hj
          exact hold j r hj h200
  · exact ⟨fun e he => hs.mem e he, hold⟩

theorem lists_stored {s₀ s : RequestPool ι} {tr : List (ListEvent ι)} (hinit : (lists svc env req).Init s₀)
    (h : (lists svc env req).Run System.Any s₀ tr s) :
    Pool.OnPath (fun i => (req i).request.handler svc (env i)) s ∧ Stored svc env req s₀ tr s := by
  induction h with
  | nil =>
    refine ⟨Pool.onPath_of_idle hinit.2, ?_, fun i r hi => ?_⟩
    · rw [hinit.1]
      rintro e ⟨⟩
    · rw [hinit.2] at hi
      cases hi
  | snoc hrun _ hstep ih => exact ⟨(lists_step ih.1 hstep).1, stored_step hrun ih.1 ih.2 hstep⟩

/-- Behind the first events `tr'` of the run, in the state `t`, request `j` has given the response `r` of request `i`:
it is `i`, or `i` starts in `t` and is answered what the cache has of `j`. -/
structure Gives (svc : Services) (env : ι → NodeEnv) (req : ι → ListCall) (s₀ : RequestPool ι)
    (tr : List (ListEvent ι)) (j i : ι) (r : Response) (tr' : List (ListEvent ι)) (t : RequestPool ι) : Prop where
  run : (lists svc env req).Run System.Any s₀ tr' t
  result : (t.thread j).result = some r
  given : (j = i ∧ tr' = tr) ∨ ∃ q q', Hits svc env req s₀ tr i r q tr' t ∧ req j = .communities q' ∧
    keyOf svc q' = keyOf svc q

/-- A response of status 200 is read by its request, or by the request that stored it. -/
theorem Stored.gives {s₀ s : RequestPool ι} {tr : List (ListEvent ι)} (hs : Stored svc env req s₀ tr s)
    (hrun : (lists svc env req).Run System.Any s₀ tr s) {i : ι} {r : Response} {log : List StmtCall}
    (hi : s.thread i = .live (.done r) log) (h200 : r.status = 200) :
    ∃ j log' tr' t, t.thread j = .live (.done r) log' ∧ log' ≠ [] ∧ Gives svc env req s₀ tr j i r tr' t := by
  by_cases hlog : log = []
  · subst hlog
    obtain ⟨q, tr', t, hhits, j, q', log', hreq', hkey, hj, hlog'⟩ := hs.thread i r hi h200
    exact ⟨j, log', tr', t, hj, hlog', hhits.run, by rw [hj]; rfl, .inr ⟨q, q', hhits, hreq', hkey⟩⟩
  · exact ⟨i, log, tr, s, hi, hlog, hrun, by rw [hi]; rfl, .inl ⟨rfl, rfl⟩⟩

section
variable {s₀ t : RequestPool ι} {tr tr' : List (ListEvent ι)} {i j : ι} {r : Response}

theorem Gives.listing (h : Gives svc env req s₀ tr j i r tr' t) :
    (req i).listing svc (env i) = (req j).listing svc (env j) := by
  obtain ⟨rfl, -⟩ | ⟨q, q', hhits, hj, hkey⟩ := h.given
  · rfl
  · rw [hhits.request, hj]
    have hparts := CacheKey.mk.inj hkey
    simp only [ListCall.listing, hparts.1, hparts.2.1, hparts.2.2.1]

theorem Gives.isPrefix (h : Gives svc env req s₀ tr j i r tr' t) : ∃ after, tr = tr' ++ after := by
  obtain ⟨-, rfl⟩ | ⟨q, q', hhits, -⟩ := h.given
  · exact ⟨[], (List.append_nil _).symm⟩
  · exact hhits.starts.imp' _ fun _ => id

end

/-! #### The two moments -/

/-- In the run `tr` request `j` has its COUNT answered in `s₁` and its SELECT in `s₂`, with the events `between`
behind the COUNT up to the SELECT. -/
structure Moments (svc : Services) (env : ι → NodeEnv) (req : ι → ListCall) (s₀ : RequestPool ι)
    (tr : List (ListEvent ι)) (j : ι) (count select : Stmt) (s₁ s₂ : RequestPool ι) (between : List (ListEvent ι)) :
    Prop where
  events : ∃ before x₁ x₂ after,
    tr = before ++ .request (.answer j x₁) :: between ++ .request (.answer j x₂) :: after ∧
    (lists svc env req).Run System.Any s₀ before s₁ ∧
    (lists svc env req).Run System.Any s₁ (.request (.answer j x₁) :: between) s₂
  count : (s₁.thread j).pending = some count
  select : (s₂.thread j).pending = some select

/-- **The total and the page are those of two moments**: each response of status 200 is given by a request `j`, which
is the request itself or the one that had stored it in the cache when the request started. `total` is the number of
rows of the list where the COUNT of `j` is answered, and `data` is the page of the `n` rows that it has where the SELECT
of `j` is. -/
theorem list_moments {s₀ s : RequestPool ι} {tr : List (ListEvent ι)} (hinit : (lists svc env req).Init s₀)
    (h : (lists svc env req).Run System.Any s₀ tr s) (hsmall : Small s.db) {i : ι} {r : Response}
    (hr : (s.thread i).result = some r) (h200 : r.status = 200) :
    ∃ j tr' t l c s₁ s₂ between n, Gives svc env req s₀ tr j i r tr' t ∧ (req i).listing svc (env i) = some l ∧
      r.body.counts = some c ∧
      Moments svc env req s₀ tr' j l.count (l.select c.limit (c.page.offset c.limit)) s₁ s₂ between ∧
      l.size svc s₁.db = .ok c.total ∧ l.size svc s₂.db = .ok n ∧ c.Of n ∧ c.total ≤ n ∧
      ((∀ e ∈ between, ∃ e', e = .request e') → c.Of c.total) := by
  obtain ⟨-, hstored⟩ := lists_stored hinit h
  obtain ⟨log, hi⟩ := Lib.Thread.result_eq_some.mp hr
  obtain ⟨j, log', tr', t, hj, hne, hgives⟩ := hstored.gives h hi h200
  obtain ⟨hpath, -⟩ := lists_stored hinit hgives.run
  -- the tables are as small where the response is given
  obtain ⟨after', rfl⟩ := hgives.isPrefix
  obtain ⟨t', hrun', hrest⟩ := h.append_inv
  obtain rfl := hrun'.unique hgives.run
  replace hsmall : Small t'.db := hsmall.of_grown (lists_run hpath hrest).2.1
  have hgiven := hgives.run
  obtain ⟨l, c, count, select, hl, rfl, hc, hread⟩ := ListCall.reads (hpath j _ _ hj).1 h200 hne
  have hlog : (t'.thread j).log = [count] ++ select :: [] := by rw [hj]; rfl
  obtain ⟨before₂, x₂, after, s₂, rfl, hrun₂, hselect, hlog₂, hanswer₂⟩ :=
    Lib.logged lists_interleaves (hinit.2 j) hgiven hlog
  replace hlog₂ : (s₂.thread j).log = [] ++ count :: [] := hlog₂
  obtain ⟨before, x₁, between, s₁, rfl, hrun₁, hcount, -, hanswer₁⟩ :=
    Lib.logged lists_interleaves (hinit.2 j) hrun₂ hlog₂
  obtain ⟨s₁', hrun₁', hbetween⟩ := hrun₂.append_inv
  obtain rfl := hrun₁'.unique hrun₁
  obtain ⟨s₂', hrun₂', hafter⟩ := hgiven.append_inv
  obtain rfl := hrun₂'.unique hrun₂
  obtain ⟨hpath₁, -, -⟩ := lists_run (Pool.onPath_of_idle hinit.2) hrun₁
  obtain ⟨hpath₂, hgrown, hsame⟩ := lists_run hpath₁ hbetween
  have hsmall₂ : Small s₂'.db := hsmall.of_grown (lists_run hpath₂ hafter).2.1
  have htotal := hread.total x₁ _ hanswer₁
  obtain ⟨n, hn, hof⟩ := hread.page x₂ _ hanswer₂
  refine ⟨j, _, t', l, c, s₁', s₂', between, n, hgives, hgives.listing.trans hl, hc,
    ⟨⟨before, x₁, x₂, after, rfl, hrun₁, hbetween⟩, hread.count ▸ hcount, hread.select ▸ hselect⟩, htotal, hn,
    hof (hsmall₂.size hn), Listing.size_le hgrown htotal hn, fun hrequests => ?_⟩
  have hdb : s₂'.db = s₁'.db := hsame (by
    rintro e (_ | ⟨_, he⟩)
    · exact ⟨_, rfl⟩
    · exact hrequests e he)
  rw [← hdb, hn] at htotal
  obtain rfl := Except.ok.inj htotal
  exact hof (hsmall₂.size hn)

end

/-! ### A row between the two statements -/

def emptyPool : RequestPool Unit where
  db := {}
  mem := []
  thread _ := .idle

/-- The list of communities is counted, a community is inserted, and the page is read. -/
def insertBetween : List (ListEvent Unit) :=
  [.request (.start ()), .request (.answer () {}),
    .insert [{ id := 1, name := "Casa", description := none, location := none, ownerId := 1, memberCount := 1,
               createdAt := 0 }] [] [],
    .request (.answer () {})]

/-- One process that is asked for the list of communities once. -/
abbrev oneList : System (RequestPool Unit) (ListEvent Unit) :=
  lists plainServices (fun _ => ⟨0, "", 0⟩) fun _ => .communities {}

theorem insertBetween_run : ∃ s r, oneList.Run System.Any emptyPool insertBetween s ∧
    (s.thread ()).result = some r ∧ r.status = 200 ∧ r.body.counts = some ⟨0, .int 1, .int 10, 1⟩ ∧ Small s.db := by
  have hexec : (oneList.exec (fun _ _ => true) emptyPool insertBetween).map (fun s =>
      ((s.thread ()).result.map fun r => (r.status, r.body.counts), s.db.communities.length, s.db.properties.length,
        s.db.notifications.length)) = some (some (200, some ⟨0, .int 1, .int 10, 1⟩), 1, 0, 0) := by decide +kernel
  obtain ⟨s, hs, hresult⟩ := Option.map_eq_some_iff.mp hexec
  simp only [Prod.mk.injEq, Option.map_eq_some_iff] at hresult
  obtain ⟨⟨r, hr, h200, hcounts⟩, hc, hp, hn⟩ := hresult
  refine ⟨s, r, (System.Run.of_exec hs).mono fun _ _ _ => trivial, hr, h200, hcounts, ?_⟩
  unfold Small
  omega

theorem list_moments_insertBetween : ∃ (r : Response) (c : Counts) (n : ℕ),
    r.body.counts = some c ∧ c.total = 0 ∧ c.Of n ∧ c.total ≤ n := by
  obtain ⟨s, r, hrun, hr, h200, hcounts, hsmall⟩ := insertBetween_run
  obtain ⟨j, tr', t, l, c, s₁, s₂, between, n, -, -, hc, -, -, -, hof, hle, -⟩ :=
    list_moments ⟨rfl, fun _ => rfl⟩ hrun hsmall hr h200
  obtain rfl := Option.some.inj (hcounts.symm.trans hc)
  exact ⟨r, _, n, hc, rfl, hof, hle⟩

/-- **A row that comes late** is one more than `total` allows. -/
theorem late_row : ¬ ∀ (svc : Services) (env : Unit → NodeEnv) (req : Unit → ListCall) (s₀ s : RequestPool Unit)
    (tr : List (ListEvent Unit)), (lists svc env req).Init s₀ → (lists svc env req).Run System.Any s₀ tr s →
    ∀ (i : Unit) (r : Response), (s.thread i).result = some r → r.status = 200 →
    ∃ c, r.body.counts = some c ∧ c.Of c.total := by
  intro h
  obtain ⟨s, r, hrun, hr, h200, hcounts, -⟩ := insertBetween_run
  obtain ⟨c, hc, p, limit, -, -, -, -, hrows⟩ := h _ _ _ _ _ _ ⟨rfl, fun _ => rfl⟩ hrun () r hr h200
  obtain rfl := Option.some.inj (hcounts.symm.trans hc)
  simp at hrows

end Locus.Server
