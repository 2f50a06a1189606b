import Locus.Lib.Unwinding
import Locus.Server.Api

/-!
# Notifications of different users

The four routes of notifications send statements whose `WHERE` names the user of the token. What the statements
of one user answer depends on the rows of that user only, and they change no others (`execOk_mine`); those of
another user change none of these (`exec_others`). So the requests of a user do not notice those of the others,
in any interleaving (`notifications_noninterference`), by the rule for two runs of `Locus.Lib.Unwinding`.
-/

namespace Locus.Server

open Lib

/-! ### The requests -/

inductive NotificationRoute
  | list (page limit : Option String)
  | read (id : IdParam)
  | readAll
  | unreadCount

/-- A request of one of the four routes, with what its handler takes from Node. -/
structure NotificationCall where
  authorization : Option String
  route : NotificationRoute
  env : NodeEnv

def NotificationCall.handler (svc : Services) (c : NotificationCall) : Handler :=
  match c.route with
  | .list page limit => getNotifications svc c.env c.authorization page limit
  | .read id => patchNotificationsRead svc c.env c.authorization id
  | .readAll => postNotificationsReadAll svc c.env c.authorization
  | .unreadCount => getNotificationsUnreadCount svc c.env c.authorization

/-- `req.user.id`, behind `authMiddleware`. -/
def NotificationCall.user (svc : Services) (c : NotificationCall) : Option Uuid :=
  (authenticate svc c.env c.authorization).map (·.id)

/-- The requests `mine` and `others` in flight on one server, whatever its tables and its cache. -/
def notificationSystem {ι κ : Type} [DecidableEq ι] [DecidableEq κ] (svc : Services) (mine : ι → NotificationCall)
    (others : κ → NotificationCall) : System (RequestPool (ι ⊕ κ)) (PoolEvent (ι ⊕ κ) Tick) :=
  Pool.system (Sum.elim (fun i => (mine i).handler svc) fun j => (others j).handler svc) (exec svc) fun _ _ => True

/-- The step is of a request of `mine`. -/
def OfMine {ι κ : Type} : PoolEvent (ι ⊕ κ) Tick → Prop
  | .start (.inl _) | .answer (.inl _) _ => True
  | _ => False

/-- Where `ORDER BY` leaves the order open, a statement of `mine` orders the rows by a rule. -/
def FixedTies {ι κ : Type} (_ : RequestPool (ι ⊕ κ)) : PoolEvent (ι ⊕ κ) Tick → Prop :=
  Pool.GoodLow fun tick => Function.Injective tick.tieBreak

/-- What the statements of notifications see of PostgreSQL's surroundings: the rule, and a fault. -/
def seen (tick : Tick) : (Uuid → ℕ) × Option String := (tick.tieBreak, tick.fault)

/-! ### The statements -/

def Stmt.notified : Stmt → Option Uuid
  | .countNotifications u | .selectNotifications u _ _ | .readNotification _ u | .readAllNotifications u
  | .countUnread u => some u
  | _ => none

/-- Two databases with the same notifications of `u`; their ids are distinct, as `id` is the primary key. -/
structure SameFor (u : Uuid) (db db' : Db) : Prop where
  perm : (notificationsOf db u).Perm (notificationsOf db' u)
  nodup : ((notificationsOf db u).map (·.id)).Nodup

theorem newestFirst_perm_eq {tick : Tick} (hrule : Function.Injective tick.tieBreak)
    {rows rows' : List NotificationRow} (h : rows.Perm rows') (hnodup : (rows.map (·.id)).Nodup) :
    newestFirst tick (·.id) (·.createdAt) rows = newestFirst tick (·.id) (·.createdAt) rows' := by
  have hperm : ∀ l : List NotificationRow, (newestFirst tick (·.id) (·.createdAt) l).Perm l :=
    fun l => newestFirst_perm tick (·.id) (·.createdAt) l
  refine List.Perm.eq_of_pairwise (fun a b ha hb hab hba => ?_) (newestFirst_pairwise tick _ _ rows)
    (newestFirst_pairwise tick _ _ rows') ((hperm rows).trans (h.trans (hperm rows').symm))
  simp only [Time] at hab hba
  have hid : a.id = b.id := hrule (by omega)
  exact List.inj_on_of_nodup_map hnodup ((hperm rows).mem_iff.mp ha)
    (h.mem_iff.mpr ((hperm rows').mem_iff.mp hb)) hid

/-! `markRead` -/

theorem notificationsOf_markRead (p : NotificationRow → Bool) (db : Db) (u : Uuid) :
    notificationsOf { db with notifications := markRead p db.notifications } u =
      markRead p (notificationsOf db u) := by
  unfold notificationsOf markRead
  rw [List.filter_map]
  refine congrArg (List.map _) (List.filter_congr fun n _ => ?_)
  simp only [Function.comp]
  split <;> rfl

theorem markRead_ids (p : NotificationRow → Bool) (rows : List NotificationRow) :
    (markRead p rows).map (·.id) = rows.map (·.id) := by
  unfold markRead
  rw [List.map_map]
  refine List.map_congr_left fun n _ => ?_
  simp only [Function.comp]
  split <;> rfl

theorem markRead_of_not {p : NotificationRow → Bool} {rows : List NotificationRow} (h : ∀ n ∈ rows, p n = false) :
    markRead p rows = rows := by
  unfold markRead
  conv_rhs => rw [← List.map_id rows]
  refine List.map_congr_left fun n hn => ?_
  rw [h n hn]
  rfl

theorem SameFor.markRead {u : Uuid} {db db' : Db} (h : SameFor u db db') (p : NotificationRow → Bool) :
    SameFor u { db with notifications := markRead p db.notifications }
      { db' with notifications := markRead p db'.notifications } := by
  constructor
  · rw [notificationsOf_markRead, notificationsOf_markRead]
    exact h.perm.map _
  · rw [notificationsOf_markRead, markRead_ids]
    exact h.nodup

theorem mem_notificationsOf {db : Db} {u : Uuid} {n : NotificationRow} (h : n ∈ notificationsOf db u) :
    n.userId = u := by
  simpa using (List.mem_filter.mp h).2

theorem SameFor.filter_id {u : Uuid} {db db' : Db} (h : SameFor u db db') (id : Uuid) :
    (notificationsOf db u).filter (fun n => decide (n.id = id)) =
      (notificationsOf db' u).filter fun n => decide (n.id = id) := by
  have hperm := h.perm.filter (fun n => decide (n.id = id))
  have hone : ((notificationsOf db u).filter fun n => decide (n.id = id)).Pairwise fun _ _ => False := by
    refine (List.Pairwise.filter _ (List.pairwise_map.mp h.nodup)).imp_of_mem fun {a b} ha hb hne => ?_
    have hida := (List.mem_filter.mp ha).2
    have hidb := (List.mem_filter.mp hb).2
    simp only [decide_eq_true_eq] at hida hidb
    exact hne (hida.trans hidb.symm)
  have hone' := (hperm.pairwise_iff fun h => h).mp hone
  exact List.Perm.eq_of_pairwise (fun _ _ _ _ h _ => h.elim) hone hone' hperm

theorem filter_hit (db : Db) (id u : Uuid) :
    db.notifications.filter (fun n => decide (n.id = id) && decide (n.userId = u)) =
      (notificationsOf db u).filter fun n => decide (n.id = id) := by
  unfold notificationsOf
  rw [List.filter_filter]

/-! One statement -/

/-- **A statement of `u` is answered by the rows of `u`**, and leaves the same rows. -/
theorem execOk_mine {svc : Services} {tick tick' : Tick} (hrule : Function.Injective tick.tieBreak)
    (htick : tick'.tieBreak = tick.tieBreak) {u : Uuid} {db db' : Db} (h : SameFor u db db') {q : Stmt}
    (hq : q.notified = some u) :
    (∃ a d d', execOk svc tick db q = .ok (a, d) ∧ execOk svc tick' db' q = .ok (a, d') ∧ SameFor u d d') ∨
      ∃ e, execOk svc tick db q = .error e ∧ execOk svc tick' db' q = .error e := by
  cases q with
  | countNotifications v =>
    cases hq
    refine .inl ⟨_, db, db', rfl, ?_, h⟩
    rw [execOk, h.perm.length_eq]
  | selectNotifications v limit offset =>
    cases hq
    have hsame : selectNotifications tick' db' u limit offset = selectNotifications tick db u limit offset := by
      unfold selectNotifications
      rw [newestFirst_perm_eq hrule h.perm h.nodup]
      unfold newestFirst
      rw [htick]
    rw [execOk, execOk, hsame]
    cases selectNotifications tick db u limit offset with
    | error e => exact .inr ⟨e, rfl, rfl⟩
    | ok rows => exact .inl ⟨rows, db, db', rfl, rfl, h⟩
  | readNotification id v =>
    cases hq
    cases id with
    | malformed text => exact .inr ⟨_, rfl, rfl⟩
    | uuid id =>
      refine .inl ⟨_, _, _, rfl, ?_, h.markRead _⟩
      rw [execOk, readNotification, filter_hit, filter_hit, h.filter_id id]
  | readAllNotifications v =>
    cases hq
    exact .inl ⟨(), _, _, rfl, rfl, h.markRead _⟩
  | countUnread v =>
    cases hq
    refine .inl ⟨_, db, db', rfl, ?_, h⟩
    rw [execOk, countUnread, countUnread, (h.perm.filter _).length_eq]
  | _ => cases hq

/-- **A statement of another user leaves the rows of `u`.** -/
theorem exec_others (svc : Services) (tick : Tick) (db : Db) {q : Stmt} {u v : Uuid} (hq : q.notified = some v)
    (hv : v ≠ u) : notificationsOf (exec svc tick db q).2 u = notificationsOf db u := by
  have hnot : ∀ p : NotificationRow → Bool, (∀ n, p n = true → n.userId = v) →
      notificationsOf { db with notifications := markRead p db.notifications } u = notificationsOf db u := by
    intro p hp
    rw [notificationsOf_markRead]
    refine markRead_of_not fun n hn => ?_
    by_contra hhit
    exact hv ((hp n (by simpa using hhit)).symm.trans (mem_notificationsOf hn))
  obtain ⟨a, d, hok, hexec⟩ | ⟨e, hexec, -⟩ := exec_cases svc tick db q
  · rw [hexec]
    cases q with
    | readNotification id w =>
      cases hq
      cases id with
      | malformed text => cases hok
      | uuid id =>
        cases hok
        exact hnot _ fun n hn => by simpa using (Bool.and_eq_true_iff.mp hn).2
    | readAllNotifications w =>
      cases hq
      cases hok
      exact hnot _ fun n hn => by simpa using hn
    | countNotifications | selectNotifications | countUnread => rw [execOk_read rfl hok]
    | _ => cases hq
  · rw [hexec]

/-! ### The handlers -/

/-- **A request sends statements of its user only.** -/
theorem handler_onlySends (svc : Services) (c : NotificationCall) (P : Stmt → Prop)
    (hP : ∀ u q, c.user svc = some u → Stmt.notified q = some u → P q) : (c.handler svc).OnlySends P := by
  have hquery : ∀ (q : Stmt) (f : Answer q → HandlerM Response), P q → (∀ a, (catch500 (f a)).OnlySends P) →
      (catch500 (query q >>= f)).OnlySends P := fun q f hq hf =>
    Prog.tryCatch_onlySends hq hf fun _ => trivial
  have hauth : ∀ next : AuthUser → Handler, (∀ user, c.user svc = some user.id → (next user).OnlySends P) →
      (authMiddleware svc c.env c.authorization next).OnlySends P := by
    intro next hnext
    refine authMiddleware_cases svc c.env (fun _ => trivial) fun user huser => hnext user ?_
    rw [NotificationCall.user, huser]
    rfl
  unfold NotificationCall.handler
  cases c.route with
  | list page limit =>
    refine hauth _ fun user huser => ?_
    exact hquery _ _ (hP user.id _ huser rfl) fun _ => hquery _ _ (hP user.id _ huser rfl) fun _ => trivial
  | read id =>
    refine hauth _ fun user huser => hquery _ _ (hP user.id _ huser rfl) fun rows => ?_
    cases rows <;> trivial
  | readAll => exact hauth _ fun user huser => hquery _ _ (hP user.id _ huser rfl) fun _ => trivial
  | unreadCount => exact hauth _ fun user huser => hquery _ _ (hP user.id _ huser rfl) fun _ => trivial

/-! ### Two runs -/

theorem unwinding (svc : Services) (u : Uuid) :
    Pool.Unwinding (exec svc) (fun v => exec svc { tieBreak := v.1, fault := v.2 }) seen
      (fun tick => Function.Injective tick.tieBreak) (fun q => q.notified = some u)
      (fun q => ∃ v, v ≠ u ∧ q.notified = some v) (SameFor u) := by
  constructor
  · intro tick db db' q hrule hq h
    cases hfault : tick.fault with
    | some message => simpa [exec, seen, hfault] using h
    | none =>
      have hexec : ∀ (tick : Tick) (db : Db), tick.fault = none →
          exec svc tick db q = settleStmt db (execOk svc tick db q) := by
        intro tick db hnone
        unfold exec
        rw [hnone]
      let tick' : Tick := { tieBreak := (seen tick).1, fault := (seen tick).2 }
      rw [hexec tick db hfault, hexec tick' db' hfault]
      obtain ⟨a, d, d', hok, hok', hsame⟩ | ⟨e, herr, herr'⟩ :=
        execOk_mine hrule (show tick'.tieBreak = tick.tieBreak from rfl) h hq
      · rw [hok, hok']
        exact ⟨rfl, hsame⟩
      · rw [herr, herr']
        exact ⟨rfl, h⟩
  · rintro tick db db' q ⟨v, hv, hq⟩ h
    have hrows := exec_others svc tick db hq hv
    exact ⟨hrows ▸ h.perm, hrows ▸ h.nodup⟩

theorem mine_frame {ι κ : Type} [DecidableEq ι] [DecidableEq κ] {svc : Services} {u : Uuid}
    {mine : ι → NotificationCall} {others : κ → NotificationCall}
    (hmine : ∀ i v, (mine i).user svc = some v → v = u) {s s' : RequestPool (ι ⊕ κ)}
    (hs : (notificationSystem svc mine others).Reachable FixedTies s) {e : PoolEvent (ι ⊕ κ) Tick} (he : OfMine e)
    (hstep : (notificationSystem svc mine others).step s e = some s') {v : Uuid} (hv : v ≠ u) :
    notificationsOf s'.db v = notificationsOf s.db v := by
  obtain ⟨i, rfl, -, rfl⟩ | ⟨i, tick, q, k, log, rfl, hi, rfl⟩ := Pool.step_cases hstep
  · rfl
  · cases i with
    | inr j => cases he
    | inl i =>
      have hsends : ((mine i).handler svc).Sends fun q => q.notified = some u :=
        (handler_onlySends svc (mine i) _ fun w q hw hq => hmine i w hw ▸ hq).sends
      obtain ⟨hq, -⟩ := ((Pool.path hs) (.inl i) _ log hi).1.always hsends
      exact exec_others svc tick s.db hq hv.symm

/-- **Notifications of different users do not interfere**: in two runs in which `u` sends the same, on tables
with the same notifications of `u`, `u` gets the same and ends with the same, whatever the others send in either;
and no request of `u` changes a row of another user. -/
theorem notifications_noninterference {ι κ κ' : Type} [DecidableEq ι] [DecidableEq κ] [DecidableEq κ']
    {svc : Services} {u : Uuid} {mine : ι → NotificationCall} {others : κ → NotificationCall}
    {others' : κ' → NotificationCall} (hmine : ∀ i v, (mine i).user svc = some v → v = u)
    (hothers : ∀ j v, (others j).user svc = some v → v ≠ u) (hothers' : ∀ j v, (others' j).user svc = some v → v ≠ u)
    {s₀ s : RequestPool (ι ⊕ κ)} {s₀' s' : RequestPool (ι ⊕ κ')} {tr : List (PoolEvent (ι ⊕ κ) Tick)}
    {tr' : List (PoolEvent (ι ⊕ κ') Tick)} (hinit : (notificationSystem svc mine others).Init s₀)
    (hinit' : (notificationSystem svc mine others').Init s₀') (hagree : SameFor u s₀.db s₀'.db)
    (hrun : (notificationSystem svc mine others).Run FixedTies s₀ tr s)
    (hrun' : (notificationSystem svc mine others').Run FixedTies s₀' tr' s')
    (hsame : tr.filterMap (Pool.lowEvent seen) = tr'.filterMap (Pool.lowEvent seen)) :
    (∀ i, (s.thread (.inl i)).result = (s'.thread (.inl i)).result) ∧
    (notificationsOf s.db u).Perm (notificationsOf s'.db u) ∧
    ∀ e s₁, OfMine e → (notificationSystem svc mine others).step s e = some s₁ →
      ∀ v, v ≠ u → notificationsOf s₁.db v = notificationsOf s.db v := by
  have hlow : ∀ i, ((mine i).handler svc).OnlySends fun q => q.notified = some u := fun i =>
    handler_onlySends svc (mine i) _ fun v q hv hq => hmine i v hv ▸ hq
  have hhigh : ∀ c : NotificationCall, (∀ v, c.user svc = some v → v ≠ u) →
      (c.handler svc).Sends fun q => ∃ v, v ≠ u ∧ q.notified = some v := fun c hc =>
    (handler_onlySends svc c _ fun v q hv hq => ⟨v, hc v hv, hq⟩).sends
  -- both runs are projected to `u` alone on the tables of the second
  let t₀ : RequestPool ι := ⟨s₀'.db, [], fun _ => .idle⟩
  have hself : SameFor u s₀'.db t₀.db := ⟨List.Perm.refl _, (hagree.perm.map _).nodup_iff.mp hagree.nodup⟩
  obtain ⟨hthreads, d, hd, hd'⟩ := Pool.noninterference (unwinding svc u) hlow (fun j => hhigh _ (hothers j))
    (fun j => hhigh _ (hothers' j)) hrun hrun' (.of_idle hagree hinit.2 fun _ => rfl)
    (.of_idle hself hinit'.2 fun _ => rfl) hsame
  refine ⟨fun i => by rw [hthreads i], hd.perm.trans hd'.perm.symm, fun e s₁ he hstep v hv => ?_⟩
  exact mine_frame hmine ⟨s₀, tr, hinit, hrun⟩ he hstep hv

def notified (others : List NotificationRow) : RequestPool (Unit ⊕ Unit) where
  db := { notifications := others ++
    [{ id := 1, userId := 1, title := none, body := none, read := false, createdAt := 0 }] }
  mem := []
  thread _ := .idle

/-- Ana counts her unread notifications; Bo reads all of his. -/
def anaCounts : Unit → NotificationCall := fun _ => ⟨some "Bearer 1.0.ana@x.org", .unreadCount, ⟨0, "", 0⟩⟩
def boReads : Unit → NotificationCall := fun _ => ⟨some "Bearer 2.0.bo@x.org", .readAll, ⟨0, "", 0⟩⟩

/-- Rows with one `created_at` in the order of their ids. -/
def byId : Tick := { tieBreak := id }

theorem anaCounts_user (i : Unit) (v : Uuid) (h : (anaCounts i).user plainServices = some v) : v = 1 := by
  have hone : (anaCounts ()).user plainServices = some 1 := by decide +kernel
  exact Option.some.inj (h.symm.trans hone)

theorem boReads_user (j : Unit) (v : Uuid) (h : (boReads j).user plainServices = some v) : v ≠ 1 := by
  have htwo : (boReads ()).user plainServices = some 2 := by decide +kernel
  rintro rfl
  exact absurd (h.symm.trans htwo) (by decide)

theorem exists_run (s₀ : RequestPool (Unit ⊕ Unit)) (tr : List (PoolEvent (Unit ⊕ Unit) Tick))
    (h : ((notificationSystem plainServices anaCounts boReads).exec (fun _ _ => true) s₀ tr).isSome = true)
    (htr : ∀ i x, PoolEvent.answer i x ∈ tr → x = byId) :
    ∃ s, (notificationSystem plainServices anaCounts boReads).Run FixedTies s₀ tr s := by
  obtain ⟨s, hs⟩ := Option.isSome_iff_exists.mp h
  refine ⟨s, (System.Run.of_exec hs).of_forall fun s e he => ?_⟩
  cases e with
  | start i => cases i <;> trivial
  | answer i x =>
    obtain rfl := htr i x he
    cases i with
    | inl i => exact Function.injective_id
    | inr j => trivial

/-- Ana gets the same count alone and behind Bo. -/
theorem notifications_noninterference_bo : ∃ s s',
    (notificationSystem plainServices anaCounts boReads).Run FixedTies (notified []) [.start (.inl ()),
      .answer (.inl ()) byId] s ∧
    (notificationSystem plainServices anaCounts boReads).Run FixedTies
      (notified [{ id := 2, userId := 2, title := none, body := none, read := false, createdAt := 0 }])
      [.start (.inr ()), .start (.inl ()), .answer (.inr ()) byId, .answer (.inl ()) byId] s' ∧
    (s.thread (.inl ())).result = (s'.thread (.inl ())).result := by
  obtain ⟨s, hs⟩ := exists_run (notified []) [.start (.inl ()), .answer (.inl ()) byId]
    (by decide +kernel) (by simp)
  obtain ⟨s', hs'⟩ := exists_run
    (notified [{ id := 2, userId := 2, title := none, body := none, read := false, createdAt := 0 }])
    [.start (.inr ()), .start (.inl ()), .answer (.inr ()) byId, .answer (.inl ()) byId]
    (by decide +kernel) (by simp)
  refine ⟨s, s', hs, hs', ?_⟩
  have hagree : SameFor 1 (notified []).db
      (notified [{ id := 2, userId := 2, title := none, body := none, read := false, createdAt := 0 }]).db :=
    ⟨List.Perm.refl _, by decide⟩
  exact (notifications_noninterference anaCounts_user boReads_user boReads_user ⟨trivial, fun _ => rfl⟩
    ⟨trivial, fun _ => rfl⟩ hagree hs hs' rfl).1 ()

end Locus.Server
