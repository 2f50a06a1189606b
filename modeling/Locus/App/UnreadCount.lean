import Locus.Server.History

/-!
# Unread notifications

`NotificationsScreen` shows a dot at what is not read, and the badge shows `GET /notifications/unread-count`. The
server creates no notification and takes none back, so these numbers only fall: once a count was answered, or all was
marked as read, no request of the user that starts later counts or shows more, whatever runs in between
(`unread_falls`).
-/

namespace Locus.App

open Lib Server

/-- `{!item.read && <View style={...unreadDot} />}` -/
def unreadDots (notifications : List NotificationRow) : List NotificationRow := notifications.filter fun n => !n.read

section
variable {svc : Services} {env : NodeEnv} {db db' : Db} {u : Uuid} {n : ℕ}

theorem countUnread_eq (db : Db) (u : Uuid) :
    countUnread db u = db.notifications.countP fun n => decide (n.userId = u) && !n.read := by
  rw [countUnread, notificationsOf, List.filter_filter, List.countP_eq_length_filter]
  exact congrArg List.length (List.filter_congr fun n _ => Bool.and_comm ..)

/-- What is unread later was unread before. -/
theorem countUnread_later (h : db.Grows db') (u : Uuid) : countUnread db' u ≤ countUnread db u := by
  rw [countUnread_eq, countUnread_eq]
  refine h.notifications.countP_le h.notifications_length fun {a b} hkept hb => ?_
  rw [Bool.and_eq_true, Bool.not_eq_true', decide_eq_true_eq] at hb ⊢
  refine ⟨?_, Bool.eq_false_iff.mpr fun ha => ?_⟩
  · rw [← hb.1, hkept.1]
  · rw [hkept.2 ha] at hb
    cases hb.2

theorem countUnread_readAll (db : Db) (u : Uuid) : countUnread (readAllNotifications db u) u = 0 := by
  rw [countUnread_eq, List.countP_eq_zero]
  intro n hn
  obtain ⟨row, -, rfl⟩ := List.mem_map.mp hn
  split
  · simp
  · rename_i hother
    simpa using fun h => absurd h (by simpa using hother)

/-- A page of notifications has no more dots than there are unread ones. -/
theorem unreadDots_le {tick : Tick} {limit offset : JsInt} {rows : List NotificationRow}
    (h : selectNotifications tick db u limit offset = .ok rows) : (unreadDots rows).length ≤ countUnread db u := by
  obtain ⟨m, -, h⟩ := bind_eq_ok.mp h
  obtain ⟨k, -, h⟩ := bind_eq_ok.mp h
  obtain rfl := Except.ok.inj h
  have hperm := newestFirst_perm tick (·.id) (·.createdAt) (notificationsOf db u)
  calc (unreadDots _).length
      ≤ ((newestFirst tick (·.id) (·.createdAt) (notificationsOf db u)).filter fun n => !n.read).length :=
        (((List.take_sublist ..).trans (List.drop_sublist ..)).filter _).length_le
    _ = countUnread db u := (hperm.filter _).length_eq

/-! ### What was answered -/

/-- The answer tells that the user `u` has at most `n` unread notifications. -/
def UnreadAnswered (svc : Services) (env : NodeEnv) (r : Request) (response : Response) (u : Uuid) (n : ℕ) : Prop :=
  r.user svc env = some u ∧
    ((∃ authorization, r = .api (.getNotificationsUnreadCount authorization) ∧ response = ⟨200, .count n⟩) ∨
      ∃ authorization, r = .api (.postNotificationsReadAll authorization) ∧ response.status = 200 ∧ n = 0)

/-- What a count or a read-all was answered bounds what is unread. -/
def UnreadTrue (db : Db) (call : StmtCall) : Prop :=
  (∀ u n, call = ⟨.countUnread u, .ok n⟩ → countUnread db u ≤ n) ∧
    ∀ u a, call = ⟨.readAllNotifications u, .ok a⟩ → countUnread db u = 0

theorem UnreadTrue.later {call : StmtCall} (h : db.Grows db') (hcall : UnreadTrue db call) : UnreadTrue db' call :=
  ⟨fun u n heq => (countUnread_later h u).trans (hcall.1 u n heq),
    fun u a heq => Nat.le_zero.mp ((countUnread_later h u).trans_eq (hcall.2 u a heq))⟩

theorem exec_unreadTrue {x : Tick} (q : Stmt) : UnreadTrue (exec svc x db q).2 ⟨q, (exec svc x db q).1⟩ := by
  refine ⟨fun u n hcall => ?_, fun u a hcall => ?_⟩
  · obtain ⟨rfl, hanswer⟩ := Prog.Call.mk.inj hcall
    obtain ⟨db', hok⟩ := exec_ok (eq_of_heq hanswer)
    have hn : countUnread db u = n := congrArg Prod.fst (Except.ok.inj hok)
    rw [exec_read svc x db rfl, hn]
  · obtain ⟨rfl, hanswer⟩ := Prog.Call.mk.inj hcall
    obtain ⟨a', db', hok, hexec⟩ | ⟨e, hexec, -⟩ := exec_cases svc x db (.readAllNotifications u)
    · rw [hexec]
      cases hok
      exact countUnread_readAll db u
    · rw [hexec] at hanswer
      cases eq_of_heq hanswer

/-- What a later request of `u` was shown. -/
def ShowsAtMost (u : Uuid) (n : ℕ) (call : StmtCall) : Prop :=
  (∀ m, call = ⟨.countUnread u, .ok m⟩ → m ≤ n) ∧
    ∀ limit offset rows, call = ⟨.selectNotifications u limit offset, .ok rows⟩ → (unreadDots rows).length ≤ n

theorem exec_showsAtMost {x : Tick} (h : countUnread db u ≤ n) (q : Stmt) :
    ShowsAtMost u n ⟨q, (exec svc x db q).1⟩ := by
  refine ⟨fun m hcall => ?_, fun limit offset rows hcall => ?_⟩
  · obtain ⟨rfl, hanswer⟩ := Prog.Call.mk.inj hcall
    obtain ⟨db', hok⟩ := exec_ok (eq_of_heq hanswer)
    have hm : countUnread db u = m := congrArg Prod.fst (Except.ok.inj hok)
    rwa [← hm]
  · obtain ⟨rfl, hanswer⟩ := Prog.Call.mk.inj hcall
    obtain ⟨db', hok⟩ := exec_ok (eq_of_heq hanswer)
    exact (unreadDots_le (ok_of_map hok)).trans h

/-! ### Where the answers come from -/

section
variable {authorization : Option String} {user : AuthUser} {log : List StmtCall}

theorem getNotificationsUnreadCount_count (huser : authenticate svc env authorization = some user)
    (h : (getNotificationsUnreadCount svc env authorization).Path log (.done ⟨200, .count n⟩)) :
    ⟨.countUnread user.id, .ok n⟩ ∈ log := by
  rw [getNotificationsUnreadCount, authMiddleware_some svc env _ huser] at h
  obtain ⟨-, hawaits⟩ | ⟨count, log', rfl, hrest⟩ | ⟨err, -, hdone⟩ := catch500_path h
  · exact (not_awaits_done hawaits).elim
  · cases (catch500_pure_path hrest).2
    exact List.mem_cons_self
  · cases hdone

theorem postNotificationsReadAll_answer {response : Response} (huser : authenticate svc env authorization = some user)
    (h : (postNotificationsReadAll svc env authorization).Path log (.done response)) (hstatus : response.status = 200) :
    ∃ a, ⟨.readAllNotifications user.id, .ok a⟩ ∈ log := by
  rw [postNotificationsReadAll, authMiddleware_some svc env _ huser] at h
  obtain ⟨-, hawaits⟩ | ⟨a, log', rfl, -⟩ | ⟨err, -, hdone⟩ := catch500_path h
  · exact (not_awaits_done hawaits).elim
  · exact ⟨a, List.mem_cons_self⟩
  · cases hdone
    cases hstatus

theorem getNotifications_page {page limit : Option String} {rows : Page NotificationRow}
    (huser : authenticate svc env authorization = some user)
    (h : (getNotifications svc env authorization page limit).Path log (.done ⟨200, .notificationPage rows⟩)) :
    ∃ limit offset, ⟨.selectNotifications user.id limit offset, .ok rows.data⟩ ∈ log := by
  rw [getNotifications, authMiddleware_some svc env _ huser] at h
  obtain ⟨-, hawaits⟩ | ⟨total, log₁, rfl, h₁⟩ | ⟨err, -, hdone⟩ := catch500_path h
  · exact (not_awaits_done hawaits).elim
  · obtain ⟨-, hawaits⟩ | ⟨data, log₂, rfl, h₂⟩ | ⟨err, -, hdone⟩ := catch500_path h₁
    · exact (not_awaits_done hawaits).elim
    · cases (catch500_pure_path h₂).2
      exact ⟨_, _, List.mem_cons_of_mem _ List.mem_cons_self⟩
    · cases hdone
  · cases hdone

theorem authenticate_of_user {r : ApiRequest} (hr : r.authorization = some authorization)
    (h : (Request.api r).user svc env = some u) : ∃ user, authenticate svc env authorization = some user ∧ user.id = u := by
  rw [Request.user, Request.authorization, hr] at h
  exact Option.map_eq_some_iff.mp h

theorem UnreadAnswered.bound {publicBaseUrl : String} {r : Request} {response : Response}
    (h : UnreadAnswered svc env r response u n)
    (hpath : (r.handler svc publicBaseUrl env).Path log (.done (some response)))
    (htrue : ∀ call ∈ log, UnreadTrue db call) : countUnread db u ≤ n := by
  obtain ⟨huser, ⟨authorization, rfl, rfl⟩ | ⟨authorization, rfl, hstatus, rfl⟩⟩ := h
  · obtain ⟨user, hauth, rfl⟩ := authenticate_of_user rfl huser
    exact (htrue _ (getNotificationsUnreadCount_count hauth (api_path svc env hpath))).1 _ _ rfl
  · obtain ⟨user, hauth, rfl⟩ := authenticate_of_user rfl huser
    obtain ⟨a, hcall⟩ := postNotificationsReadAll_answer hauth (api_path svc env hpath) hstatus
    exact ((htrue _ hcall).2 _ _ rfl).le

end

end

/-! ### Runs -/

section
variable {ι : Type} [DecidableEq ι] {svc : Services} {publicBaseUrl : String} {env : ι → NodeEnv} {req : ι → Request}
  {Init : Db → Prop} {C : WholeServer ι → PoolEvent ι Tick → Prop} {s s' : WholeServer ι}
  {tr : List (PoolEvent ι Tick)}

/-- **The unread numbers of a user only fall**: behind an answer that tells `n`, a request of his that starts later
counts at most `n`, and shows at most `n` dots on any page. -/
theorem unread_falls (h : (wholeServer svc publicBaseUrl env req Init).Reachable C s) {i j : ι} {u : Uuid} {n : ℕ}
    {told : Response} (hi : (s.thread i).result = some (some told))
    (htold : UnreadAnswered svc (env i) (req i) told u n) (hidle : s.thread j = .idle)
    (huser : (req j).user svc (env j) = some u)
    (hrun : (wholeServer svc publicBaseUrl env req Init).Run C s tr s') {response : Response}
    (hj : (s'.thread j).result = some (some response)) :
    (∀ authorization m, req j = .api (.getNotificationsUnreadCount authorization) → response = ⟨200, .count m⟩ →
      m ≤ n) ∧
    ∀ authorization page limit rows, req j = .api (.getNotifications authorization page limit) →
      response = ⟨200, .notificationPage rows⟩ → (unreadDots rows.data).length ≤ n := by
  have hbound : countUnread s.db u ≤ n := by
    obtain ⟨-, htrue⟩ := Pool.answered (J := fun _ => True) (T := UnreadTrue) (fun _ _ _ => trivial)
      (fun x db q call _ hcall => hcall.later (exec_grows svc x db q)) (fun x db q _ => exec_unreadTrue q)
      (fun _ _ _ _ _ _ _ _ _ => trivial) h
    exact htold.bound (result_path (wholeServer_path h) hi) (htrue i)
  have hnone : ∀ i, i = j → ∀ call ∈ (s.thread i).log, ShowsAtMost u n call := by
    rintro i rfl call hcall
    rw [hidle] at hcall
    cases hcall
  obtain ⟨hpath, -, hshown⟩ := Pool.answered_run (J := fun db => countUnread db u ≤ n)
    (T := fun _ => ShowsAtMost u n) (· = j) (fun _ _ _ _ _ hcall => hcall) (fun x db q hdb => exec_showsAtMost hdb q)
    (fun i x db q k log _ _ hdb => (countUnread_later (exec_grows svc x db q) u).trans hdb)
    (wholeServer_path h) hbound hnone hrun
  have hend := result_path hpath hj
  refine ⟨fun authorization m hreq hm => ?_, fun authorization page limit rows hreq hrows => ?_⟩
  · rw [hreq] at hend huser
    subst hm
    obtain ⟨user, hauth, rfl⟩ := authenticate_of_user rfl huser
    exact (hshown j rfl _ (getNotificationsUnreadCount_count hauth (api_path svc (env j) hend))).1 _ rfl
  · rw [hreq] at hend huser
    subst hrows
    obtain ⟨user, hauth, rfl⟩ := authenticate_of_user rfl huser
    obtain ⟨limit', offset, hcall⟩ := getNotifications_page hauth (api_path svc (env j) hend)
    exact (hshown j rfl _ hcall).2 _ _ _ rfl

def anaHasOne : Db :=
  { loft with notifications := [{ id := 30, userId := 1, title := none, body := none, read := false, createdAt := 0 }] }

/-- She marks all as read, then counts. -/
def anaReadsAll : Bool → Request
  | false => .api (.postNotificationsReadAll (some "Bearer 1.0.ana@x.org"))
  | true => .api (.getNotificationsUnreadCount (some "Bearer 1.0.ana@x.org"))

def countOf : Option (Option Response) → Option ℕ :=
  dataOf 200 fun | .count n => some n | _ => none

theorem countOf_some {r : Option (Option Response)} {n : ℕ} (h : countOf r = some n) :
    r = some (some ⟨200, .count n⟩) :=
  dataOf_some (by rintro ⟨⟩ a ⟨⟩; rfl) h

theorem unread_falls_ana :
    countUnread anaHasOne 1 = 1 ∧
      ∃ (s : WholeServer Bool) (m : ℕ), (s.thread true).result = some (some ⟨200, .count m⟩) ∧ m ≤ 0 := by
  let M := wholeServer plainServices "" (fun _ => ⟨5, "", 0⟩) anaReadsAll (· = anaHasOne)
  obtain ⟨s, hrun, hfacts⟩ := wholeServer_of_exec plainServices "" (fun _ => ⟨5, "", 0⟩) anaReadsAll anaHasOne
    (fun s => ((s.thread false).result.map (·.map (·.status)), isIdle (s.thread true),
      (M.exec (fun _ _ => true) s [.start true, .answer true {}]).map fun s' => (countOf (s'.thread true).result).isSome))
    [.start false, .answer false {}] (a := (some (some 200), true, some true)) (by decide +kernel)
  obtain ⟨hstatus, hrest⟩ := Prod.mk.inj hfacts
  obtain ⟨hidle, hcount⟩ := Prod.mk.inj hrest
  obtain ⟨r, hr, hr200⟩ := Option.map_eq_some_iff.mp hstatus
  obtain ⟨told, rfl, htold⟩ := Option.map_eq_some_iff.mp hr200
  obtain ⟨s', hexec, hsome⟩ := Option.map_eq_some_iff.mp hcount
  obtain ⟨m, hm⟩ := Option.isSome_iff_exists.mp hsome
  have hfalls := unread_falls (u := 1) (n := 0) ((wholeServer_start ..).trans hrun) hr
    ⟨by decide +kernel, .inr ⟨_, rfl, htold, rfl⟩⟩ (idle_of_isIdle hidle) (by decide +kernel)
    ((System.Run.of_exec hexec).mono fun _ _ _ => trivial) (countOf_some hm)
  exact ⟨by decide, s', m, countOf_some hm, hfalls.1 _ m rfl rfl⟩

end

end Locus.App
