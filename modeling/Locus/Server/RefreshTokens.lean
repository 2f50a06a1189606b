import Locus.Lib.Ledger
import Locus.Server.Handlers

/-!
# Refresh tokens under concurrent requests

Any number of `POST /auth/refresh` and `POST /auth/logout` requests, their SQL statements interleaved in
any way. `POST /auth/refresh` looks its token up, deletes it and inserts the successor, and does not look
at the row count of its DELETE. So two requests that both passed the lookup both answer 200
(`refresh_race`).

The token table under these requests is a ledger of single-use tokens (`tokenPool_ledger`): a DELETE
that removes a row takes the token, an INSERT issues the request's own fresh one. A token is therefore
taken once, and consumed once as long as every refresh finds its row when it deletes it
(`consumed_le_one`).
-/

namespace Locus.Server

open Lib

/-- A request of the two routes; a refresh with what it takes from Node. -/
inductive TokenRequest
  | refresh (env : NodeEnv) (body : Json)
  | logout (body : Json)

namespace TokenRequest

def handler (svc : Services) : TokenRequest → Handler
  | refresh env body => postAuthRefresh svc env body
  | logout body => postAuthLogout body

/-- The refresh token the request presents. -/
def token : TokenRequest → Option String
  | refresh _ body => textOrNull (body.field? "refresh_token")
  | logout body => textOrNull (body.field? "refresh_token")

def fresh : TokenRequest → Option String
  | refresh env _ => some env.randomHex
  | logout _ => none

end TokenRequest

abbrev TokenCall := Prog.Call Stmt Answer Thrown

/-- The call is a DELETE that removed a row of `t`. -/
def removes (t : String) : TokenCall → Bool
  | ⟨.deleteRefreshToken t', .ok n⟩ => decide (t' = t) && decide ((0 : ℕ) < n)
  | _ => false

/-- The call is an INSERT of a refresh token that succeeded. -/
def insertsToken : TokenCall → Bool
  | ⟨.insertRefreshToken .., .ok _⟩ => true
  | _ => false

/-- The handlers' DELETE of `t` was answered. -/
def Deleted (t : String) (log : List TokenCall) : Prop :=
  ∃ n : ℕ, (⟨.deleteRefreshToken t, .ok n⟩ : TokenCall) ∈ log

/-! ### The points of the two handlers -/

theorem postAuthRefresh_path {svc : Services} {env : NodeEnv} {body : Json} {t : String}
    (ht : textOrNull (body.field? "refresh_token") = some t) {log : List TokenCall} {p : Handler}
    (h : (postAuthRefresh svc env body).Path log p) :
    (log.all (fun c => !insertsToken c) ∧
      ((∃ u, p.Awaits (.selectRefreshToken t) ∨ p.Awaits (.selectUser u)) ∨
        p.Awaits (.deleteRefreshToken t) ∨
        (∃ u e, Deleted t log ∧ p.Awaits (.insertRefreshToken u env.randomHex e)) ∨
        ∃ r, p = .done r ∧ r.status ≠ 200)) ∨
    (Deleted t log ∧ ∃ r, p = .done r ∧ r.status = 200) := by
  unfold postAuthRefresh at h
  rw [ht] at h
  obtain ⟨rfl, hp⟩ | ⟨rows, log₁, rfl, h₁⟩ | ⟨err, rfl, rfl⟩ := catch500_path h
  · exact .inl ⟨rfl, .inl ⟨0, .inl hp⟩⟩
  swap
  · exact .inl ⟨rfl, .inr (.inr (.inr ⟨_, rfl, by simp [failure]⟩))⟩
  cases rows with
  | nil =>
    obtain ⟨rfl, rfl⟩ := catch500_pure_path h₁
    exact .inl ⟨rfl, .inr (.inr (.inr ⟨_, rfl, by simp [failure]⟩))⟩
  | cons userId rest =>
    obtain ⟨rfl, hp⟩ | ⟨users, log₂, rfl, h₂⟩ | ⟨err, rfl, rfl⟩ := catch500_path h₁
    · exact .inl ⟨rfl, .inl ⟨userId, .inr hp⟩⟩
    swap
    · exact .inl ⟨rfl, .inr (.inr (.inr ⟨_, rfl, by simp [failure]⟩))⟩
    cases users with
    | nil =>
      obtain ⟨rfl, rfl⟩ := catch500_pure_path h₂
      exact .inl ⟨rfl, .inr (.inr (.inr ⟨_, rfl, by simp [failure]⟩))⟩
    | cons user rest' =>
      obtain ⟨rfl, hp⟩ | ⟨n, log₃, rfl, h₃⟩ | ⟨err, rfl, rfl⟩ := catch500_path h₂
      · exact .inl ⟨rfl, .inr (.inl hp)⟩
      swap
      · exact .inl ⟨rfl, .inr (.inr (.inr ⟨_, rfl, by simp [failure]⟩))⟩
      -- the DELETE is answered: whatever its row count, the INSERT follows
      obtain ⟨rfl, hp⟩ | ⟨_, log₄, rfl, h₄⟩ | ⟨err, rfl, rfl⟩ := catch500_path h₃
      · exact .inl ⟨rfl, .inr (.inr (.inl ⟨_, _, ⟨n, by simp⟩, hp⟩))⟩
      swap
      · exact .inl ⟨rfl, .inr (.inr (.inr ⟨_, rfl, by simp [failure]⟩))⟩
      obtain ⟨rfl, rfl⟩ := catch500_pure_path h₄
      exact .inr ⟨⟨n, by simp⟩, _, rfl, rfl⟩

theorem postAuthLogout_path {body : Json} {t : String}
    (ht : textOrNull (body.field? "refresh_token") = some t) {log : List TokenCall} {p : Handler}
    (h : (postAuthLogout body).Path log p) :
    log.all (fun c => !insertsToken c) ∧
      (p.Awaits (.deleteRefreshToken t) ∨ ∃ r, p = .done r) := by
  unfold postAuthLogout at h
  rw [ht] at h
  obtain ⟨rfl, hp⟩ | ⟨n, log', rfl, h'⟩ | ⟨err, log', rfl, h'⟩ := Prog.tryCatch_path h
  · exact ⟨rfl, .inl hp⟩
  · obtain ⟨rfl, rfl⟩ := Prog.tryCatch_pure_path h'
    exact ⟨rfl, .inr ⟨_, rfl⟩⟩
  · obtain ⟨rfl, rfl⟩ := Prog.path_done.mp h'
    exact ⟨rfl, .inr ⟨_, rfl⟩⟩

theorem tokenRequest_awaits {svc : Services} {r : TokenRequest} {log : List TokenCall} {q : Stmt}
    {k : Except Thrown (Answer q) → Handler} (h : (r.handler svc).Path log (.query q k)) :
    log.all (fun c => !insertsToken c) ∧
    ((∃ t, q = .selectRefreshToken t) ∨ (∃ u, q = .selectUser u) ∨
      (∃ t, r.token = some t ∧ q = .deleteRefreshToken t) ∨
      ∃ t u e f, r.token = some t ∧ r.fresh = some f ∧ Deleted t log ∧
        q = .insertRefreshToken u f e) := by
  cases r with
  | refresh env body =>
    cases ht : textOrNull (body.field? "refresh_token") with
    | none =>
      have hdone : (TokenRequest.refresh env body).handler svc = .done (failure 400 "refresh_token required") := by
        rw [TokenRequest.handler, postAuthRefresh, ht]
      rw [hdone] at h
      obtain ⟨-, hq⟩ := Prog.path_done.mp h
      cases hq
    | some t =>
      obtain ⟨hlog, hp⟩ | ⟨-, r, hr, -⟩ := postAuthRefresh_path ht h
      · refine ⟨hlog, ?_⟩
        rcases hp with ⟨u, ⟨k', hk⟩ | ⟨k', hk⟩⟩ | ⟨k', hk⟩ | ⟨u, e, hd, k', hk⟩ | ⟨r, hr, -⟩
        · cases hk; exact .inl ⟨t, rfl⟩
        · cases hk; exact .inr (.inl ⟨u, rfl⟩)
        · cases hk; exact .inr (.inr (.inl ⟨t, ht, rfl⟩))
        · cases hk; exact .inr (.inr (.inr ⟨t, u, e, _, ht, rfl, hd, rfl⟩))
        · cases hr
      · cases hr
  | logout body =>
    cases ht : textOrNull (body.field? "refresh_token") with
    | none =>
      have hdone : (TokenRequest.logout body).handler svc = .done ⟨200, .success⟩ := by
        rw [TokenRequest.handler, postAuthLogout, ht]
      rw [hdone] at h
      obtain ⟨-, hq⟩ := Prog.path_done.mp h
      cases hq
    | some t =>
      obtain ⟨hlog, ⟨k', hk⟩ | ⟨r, hr⟩⟩ := postAuthLogout_path ht h
      · cases hk
        exact ⟨hlog, .inr (.inr (.inl ⟨t, ht, rfl⟩))⟩
      · cases hr

/-! ### The token table is a ledger -/

section
variable {ι : Type} [DecidableEq ι] {svc : Services} {req : ι → TokenRequest}

/-- The requests start on a token table that holds none of the tokens they generate, and these differ. -/
def FreshStart (req : ι → TokenRequest) (db : Db) : Prop :=
  (∀ i j t, (req i).fresh = some t → (req j).fresh = some t → i = j) ∧
    ∀ i t, (req i).fresh = some t → ∀ r ∈ db.refreshTokens, r.token ≠ t

/-- The requests `req`, their statements interleaved in any way. -/
def tokenSystem (svc : Services) (req : ι → TokenRequest) :
    System (RequestPool ι) (PoolEvent ι Tick) :=
  Pool.system (fun i => (req i).handler svc) (exec svc) fun db _ => FreshStart req db

/-- Who removed which row, who inserted the token it generated, and which tokens have a row. -/
def tokenLedger (s : RequestPool ι) : Ledger ι String where
  live := { t | ∃ r ∈ s.db.refreshTokens, r.token = t }
  taken i := { t | (s.thread i).log.any (removes t) }
  issued := { i | (s.thread i).log.any insertsToken }

omit [DecidableEq ι] in
theorem tokenLedger_ext {s s' : RequestPool ι}
    (hdb : ∀ t, (∃ r ∈ s'.db.refreshTokens, r.token = t) ↔ ∃ r ∈ s.db.refreshTokens, r.token = t)
    (hlog : ∀ i, (∀ t, (s'.thread i).log.any (removes t) = (s.thread i).log.any (removes t)) ∧
      (s'.thread i).log.any insertsToken = (s.thread i).log.any insertsToken) :
    tokenLedger s' = tokenLedger s := by
  unfold tokenLedger
  congr 1
  · exact Set.ext hdb
  · funext i
    exact Set.ext fun t => by simp only [Set.mem_ofPred_eq, (hlog i).1 t]
  · exact Set.ext fun i => by simp only [Set.mem_ofPred_eq, (hlog i).2]

theorem any_goto {s : RequestPool ι} {i : ι} {q : Handler} {log : List TokenCall} (hi : s.thread i = .live q log)
    (d : Db) (p : Handler) (c : TokenCall) (f : TokenCall → Bool) (j : ι) :
    ((s.goto i d p (log ++ [c])).thread j).log.any f = ((s.thread j).log.any f || (decide (j = i) && f c)) := by
  rw [Pool.goto_log]
  split
  · rename_i hji
    subst hji
    rw [hi, List.any_append]
    simp
  · rename_i hji
    simp [hji]

theorem tokenLedger_quiet {s : RequestPool ι} {i : ι} {p q : Handler} {log : List TokenCall} {d : Db}
    {c : TokenCall} (hi : s.thread i = .live q log) (hd : d.refreshTokens = s.db.refreshTokens)
    (hr : ∀ t, removes t c = false) (hc : insertsToken c = false) :
    tokenLedger (s.goto i d p (log ++ [c])) = tokenLedger s := by
  refine tokenLedger_ext (fun t => by rw [Pool.goto_db, hd]) fun j => ⟨fun t => ?_, ?_⟩
  · rw [any_goto hi, hr, Bool.and_false, Bool.or_false]
  · rw [any_goto hi, hc, Bool.and_false, Bool.or_false]

theorem tokenLedger_take {s : RequestPool ι} {i : ι} {p q : Handler} {log : List TokenCall} {t : String}
    (hi : s.thread i = .live q log) {n : ℕ} (hn : 0 < n) :
    tokenLedger (s.goto i (deleteRefreshToken s.db t).2 p
      (log ++ [⟨.deleteRefreshToken t, .ok n⟩])) = (tokenLedger s).take i t := by
  unfold tokenLedger Ledger.take
  congr 1
  · ext u
    simp only [Pool.goto_db, deleteRefreshToken, Set.mem_ofPred_eq, List.mem_filter,
      decide_eq_true_eq, Set.mem_sdiff, Set.mem_singleton_iff]
    constructor
    · rintro ⟨r, ⟨hr, hne⟩, rfl⟩
      exact ⟨⟨r, hr, rfl⟩, hne⟩
    · rintro ⟨⟨r, hr, rfl⟩, hne⟩
      exact ⟨r, ⟨hr, hne⟩, rfl⟩
  · funext j
    ext u
    have hu : removes u ⟨.deleteRefreshToken t, .ok n⟩ = decide (u = t) := by
      simp [removes, hn, eq_comm]
    rw [Set.mem_ofPred_eq, any_goto hi, hu]
    by_cases hji : j = i
    · subst hji
      simp only [decide_true, Bool.true_and, Bool.or_eq_true, decide_eq_true_eq, Function.update_self,
        Set.mem_insert_iff, Set.mem_ofPred_eq]
      exact or_comm
    · simp [hji]
  · ext j
    have hj : insertsToken ⟨.deleteRefreshToken t, .ok n⟩ = false := rfl
    rw [Set.mem_ofPred_eq, any_goto hi, hj, Bool.and_false, Bool.or_false]
    rfl

theorem tokenLedger_issue {s : RequestPool ι} {i : ι} {p q : Handler} {log : List TokenCall} {tick : Tick}
    {u : Uuid} {f : String} {e : Time} {d : Db} (hi : s.thread i = .live q log)
    (hd : insertRefreshToken tick s.db u f e = .ok ((), d)) :
    tokenLedger (s.goto i d p (log ++ [⟨.insertRefreshToken u f e, .ok ()⟩])) =
      (tokenLedger s).issue i f := by
  obtain ⟨row, hrow, rfl⟩ : ∃ row : RefreshTokenRow, row.token = f ∧
      d = { s.db with refreshTokens := s.db.refreshTokens ++ [row] } := by
    unfold insertRefreshToken at hd
    split_ifs at hd
    cases hd
    exact ⟨_, rfl, rfl⟩
  unfold tokenLedger Ledger.issue
  congr 1
  · ext t
    simp [hrow, or_comm, eq_comm]
  · funext j
    ext t
    have ht : removes t ⟨.insertRefreshToken u f e, .ok ()⟩ = false := rfl
    rw [Set.mem_ofPred_eq, any_goto hi, ht, Bool.and_false, Bool.or_false]
    rfl
  · ext j
    have hj : insertsToken ⟨.insertRefreshToken u f e, .ok ()⟩ = true := rfl
    rw [Set.mem_ofPred_eq, any_goto hi, hj, Bool.and_true, Bool.or_eq_true, decide_eq_true_eq]
    exact or_comm

/-- **The token table is a ledger of single-use tokens**: what a statement does to it is a step of the
ledger. -/
theorem tokenPool_ledger {s s' : RequestPool ι} {e : PoolEvent ι Tick}
    (hpath : Pool.OnPath (fun i => (req i).handler svc) s)
    (h : (tokenSystem svc req).step s e = some s') :
    (tokenLedger s).Step (fun i => (req i).fresh) (tokenLedger s') := by
  obtain ⟨i, rfl, hi, rfl⟩ | ⟨i, x, q, k, log, rfl, hi, rfl⟩ := Pool.step_cases h
  · have hsame : tokenLedger (s.goto i s.db ((req i).handler svc) []) = tokenLedger s := by
      refine tokenLedger_ext (fun t => by rw [Pool.goto_db]) fun j => ?_
      rw [Pool.goto_log]
      split
      · rename_i hji
        subst hji
        simp [hi]
      · exact ⟨fun _ => rfl, rfl⟩
    rw [hsame]
    exact .stay
  · have hquiet : (exec svc x s.db q).2.refreshTokens = s.db.refreshTokens →
        (∀ t, removes t ⟨q, (exec svc x s.db q).1⟩ = false) →
        insertsToken ⟨q, (exec svc x s.db q).1⟩ = false → (tokenLedger s).Step (fun i => (req i).fresh)
          (tokenLedger (s.goto i (exec svc x s.db q).2 (k (exec svc x s.db q).1)
            (log ++ [⟨q, (exec svc x s.db q).1⟩]))) := by
      intro hd hr hc
      rw [tokenLedger_quiet hi hd hr hc]
      exact .stay
    obtain ⟨hnot, hq⟩ := tokenRequest_awaits (hpath i _ _ hi).1
    obtain ⟨a, d, hok, hexec⟩ | ⟨err, hexec, -⟩ := exec_cases svc x s.db q
    swap
    · -- a statement that fails changes nothing
      rw [hexec] at hquiet ⊢
      exact hquiet rfl (fun t => by cases q <;> rfl) (by cases q <;> rfl)
    rw [hexec] at hquiet ⊢
    rcases hq with ⟨t, rfl⟩ | ⟨u, rfl⟩ | ⟨t, -, rfl⟩ | ⟨-, u, e, f, -, hf, -, rfl⟩
    · cases hok
      exact hquiet rfl (fun _ => rfl) rfl
    · cases hok
      exact hquiet rfl (fun _ => rfl) rfl
    · obtain ⟨rfl, rfl⟩ : (deleteRefreshToken s.db t).1 = a ∧ (deleteRefreshToken s.db t).2 = d :=
        Prod.mk.inj (Except.ok.inj hok)
      by_cases hn : (deleteRefreshToken s.db t).1 = 0
      · refine hquiet ?_ (fun t' => by simp only [removes, hn]; simp) rfl
        simp only [deleteRefreshToken, List.length_eq_zero_iff, List.filter_eq_nil_iff] at hn
        simpa [deleteRefreshToken] using hn
      · rw [tokenLedger_take hi (Nat.pos_of_ne_zero hn)]
        refine .take i t ?_
        obtain ⟨r, hr⟩ := List.exists_mem_of_length_pos (Nat.pos_of_ne_zero hn)
        simp only [List.mem_filter, decide_eq_true_eq] at hr
        exact ⟨r, hr.1, hr.2⟩
    · rw [tokenLedger_issue hi hok]
      refine .issue i f hf ?_
      simpa [tokenLedger, hi] using hnot

theorem tokenLedger_linear {C : RequestPool ι → PoolEvent ι Tick → Prop} {s : RequestPool ι}
    (h : (tokenSystem svc req).Reachable C s) :
    (tokenLedger s).Linear (fun i => (req i).fresh) := by
  have hinv := h.invariant (I := fun s => (Pool.OnPath (fun i => (req i).handler svc) s) ∧
    (∀ i j t, (req i).fresh = some t → (req j).fresh = some t → i = j) ∧
    (tokenLedger s).Linear fun i => (req i).fresh) ?_ ?_
  · exact hinv.2.2
  · rintro s₀ ⟨⟨hinj, hnew⟩, hidle⟩
    refine ⟨Pool.onPath_of_idle hidle, hinj, ?_⟩
    have hnone : ∀ i t, t ∉ (tokenLedger s₀).taken i := fun i t => by simp [tokenLedger, hidle]
    refine ⟨fun i t ht => absurd ht (hnone i t), fun i j t ht => absurd ht (hnone i t), ?_⟩
    intro j t hj _
    refine ⟨?_, fun i => hnone i t⟩
    rintro ⟨r, hr, rfl⟩
    exact hnew j _ hj r hr rfl
  · rintro s e s' ⟨hpath, hinj, hlin⟩ - hstep
    exact ⟨Pool.onPath_step hpath hstep, hinj, hlin.step hinj (tokenPool_ledger hpath hstep)⟩

/-! ### Consumption -/

/-- Request `r`, at `th`, has consumed `t`: a refresh that presents `t` and answered 200, or a logout that
removed the row of `t`. -/
def consumes (t : String) (r : TokenRequest) (th : Thread Stmt Answer Thrown Cache Response) : Bool :=
  match r with
  | .refresh _ _ => decide (r.token = some t) && decide (th.result.map (·.status) = some 200)
  | .logout _ => th.log.any (removes t)

/-- How many requests have consumed `t`. -/
def consumed [Fintype ι] (req : ι → TokenRequest) (s : RequestPool ι) (t : String) : ℕ :=
  (Finset.univ.filter fun i => consumes t (req i) (s.thread i)).card

/-- If the event answers the DELETE of a refresh, the row is still there. -/
def deleteFinds (req : ι → TokenRequest) (s : RequestPool ι) : PoolEvent ι Tick → Bool
  | .start _ => true
  | .answer i _ => match req i, (s.thread i).pending with
    | .refresh _ _, some (.deleteRefreshToken t) => s.db.refreshTokens.any (·.token = t)
    | _, _ => true

theorem refresh_removes {s : RequestPool ι}
    (h : (tokenSystem svc req).Reachable (fun s e => deleteFinds req s e) s) {i : ι} {env : NodeEnv}
    {body : Json} (hi : req i = .refresh env body) {t : String} (hd : Deleted t (s.thread i).log) :
    (s.thread i).log.any (removes t) := by
  refine h.invariant (fun s => Deleted t (s.thread i).log → (s.thread i).log.any (removes t)) ?_ ?_ hd
  · rintro s₀ ⟨-, hidle⟩ ⟨n, hn⟩
    rw [hidle i] at hn
    cases hn
  · rintro s e s' hs hC hstep ⟨n, hn⟩
    obtain ⟨j, rfl, hj, rfl⟩ | ⟨j, x, q, k, log, rfl, hj, rfl⟩ := Pool.step_cases hstep
    · rw [Pool.goto_log] at hn ⊢
      split at hn
      · cases hn
      · rw [if_neg ‹_›]
        exact hs ⟨n, hn⟩
    · rw [Pool.goto_log] at hn ⊢
      split at hn
      swap
      · rw [if_neg ‹_›]
        exact hs ⟨n, hn⟩
      rename_i hij
      subst hij
      rw [if_pos rfl, List.any_append, Bool.or_eq_true]
      rw [hj] at hs
      rcases List.mem_append.mp hn with hn | hn
      · exact .inl (hs ⟨n, hn⟩)
      · -- this very answer: the DELETE found the row
        right
        obtain rfl : q = .deleteRefreshToken t :=
          (congrArg Prog.Call.query (List.mem_singleton.mp hn)).symm
        have hrow : s.db.refreshTokens.any (·.token = t) := by
          simpa [deleteFinds, hi, hj, Thread.pending] using hC
        obtain ⟨a, d, hok, hexec⟩ | ⟨err, hexec, -⟩ := exec_cases svc x s.db (.deleteRefreshToken t)
        · obtain ⟨rfl, rfl⟩ : (deleteRefreshToken s.db t).1 = a ∧ (deleteRefreshToken s.db t).2 = d :=
            Prod.mk.inj (Except.ok.inj hok)
          have hpos : 0 < (deleteRefreshToken s.db t).1 := by
            obtain ⟨r, hr, hrt⟩ := List.any_eq_true.mp hrow
            exact List.length_pos_of_mem (List.mem_filter.mpr ⟨hr, hrt⟩)
          rw [hexec]
          simp [removes, hpos]
        · rw [hexec] at hn
          simp at hn

theorem taken_of_consumes {s : RequestPool ι}
    (h : (tokenSystem svc req).Reachable (fun s e => deleteFinds req s e) s) {i : ι} {t : String}
    (hc : consumes t (req i) (s.thread i)) : t ∈ (tokenLedger s).taken i := by
  cases hi : req i with
  | logout body =>
    simp only [consumes, hi] at hc
    exact hc
  | refresh env body =>
    simp only [consumes, hi, Bool.and_eq_true, decide_eq_true_eq, Option.map_eq_some_iff] at hc
    obtain ⟨htok, r, hr, hstatus⟩ := hc
    obtain ⟨log, hth⟩ := Thread.result_eq_some.mp hr
    have hpath := (Pool.path h i _ _ hth).1
    rw [hi] at hpath
    obtain ⟨-, hp⟩ | ⟨hd, -⟩ := postAuthRefresh_path htok hpath
    · rcases hp with ⟨u, ⟨k, hk⟩ | ⟨k, hk⟩⟩ | ⟨k, hk⟩ | ⟨u, e, hd, k, hk⟩ | ⟨r', hr', hne⟩
      all_goals first | cases hk | cases hr'
      exact absurd hstatus hne
    · refine refresh_removes h hi ?_
      rw [hth]
      exact hd

theorem taken_of_inserts {s : RequestPool ι}
    (h : (tokenSystem svc req).Reachable (fun s e => deleteFinds req s e) s) {i : ι} {t : String}
    (htok : (req i).token = some t) (hins : (s.thread i).log.any insertsToken) :
    t ∈ (tokenLedger s).taken i := by
  obtain hth | ⟨p, log, hth⟩ : s.thread i = .idle ∨ ∃ p log, s.thread i = .live p log := by
    cases s.thread i with
    | idle => exact .inl rfl
    | live p log => exact .inr ⟨p, log, rfl⟩
  · rw [hth] at hins
    cases hins
  rw [hth, Thread.log_live] at hins
  have hno : ¬ log.all (fun c => !insertsToken c) := by
    obtain ⟨c, hc, hct⟩ := List.any_eq_true.mp hins
    intro hall
    have hno := List.all_eq_true.mp hall c hc
    simp [hct] at hno
  have hpath := (Pool.path h i _ _ hth).1
  cases hi : req i with
  | logout body =>
    rw [hi] at hpath htok
    exact absurd (postAuthLogout_path htok hpath).1 hno
  | refresh env body =>
    rw [hi] at hpath htok
    obtain ⟨hall, -⟩ | ⟨hd, -⟩ := postAuthRefresh_path htok hpath
    · exact absurd hall hno
    · refine refresh_removes h hi ?_
      rw [hth]
      exact hd

/-- **Refresh tokens are linear while every refresh finds its row**: then a token is consumed at most
once, and what inserts a successor of `t` is the only request that removes `t`. -/
theorem consumed_le_one [Fintype ι] {s : RequestPool ι}
    (h : (tokenSystem svc req).Reachable (fun s e => deleteFinds req s e) s) (t : String) :
    consumed req s t ≤ 1 ∧
      ∀ i j, (req i).token = some t → (s.thread i).log.any insertsToken →
        (s.thread j).log.any (removes t) → j = i := by
  have honce := (tokenLedger_linear h).taken_once
  constructor
  · refine Finset.card_le_one.mpr fun i hi j hj => ?_
    simp only [Finset.mem_filter, Finset.mem_univ, true_and] at hi hj
    exact honce i j t (taken_of_consumes h hi) (taken_of_consumes h hj)
  · intro i j htok hins hrem
    exact honce j i t hrem (taken_of_inserts h htok hins)

end

/-! ### The race -/

/-- One user with one refresh token. -/
def oneSession : Db where
  users := [{ id := 1, email := "ana@x.org", name := none, passwordHash := none, createdAt := 0,
              updatedAt := 0 }]
  refreshTokens := [{ id := 7, userId := 1, token := "t0", expiresAt := 1000, createdAt := 0 }]

/-- The body that presents this token. -/
def presentT0 : Json := .obj [("refresh_token", .str "t0")]

def refreshAndLogout : Bool → TokenRequest
  | false => .refresh ⟨5, "t1", 0⟩ presentT0
  | true => .logout presentT0

def twoRefreshes : Bool → TokenRequest
  | false => .refresh ⟨5, "t1", 0⟩ presentT0
  | true => .refresh ⟨5, "t2", 0⟩ presentT0

def idlePool (db : Db) : RequestPool Bool := ⟨db, [], fun _ => .idle⟩

/-- The logout's DELETE comes behind the refresh's, and removes nothing. -/
theorem consumed_le_one_refresh_logout :
    ∃ s, (tokenSystem plainServices refreshAndLogout).Reachable System.Any s ∧
      (s.thread false).result.map (·.status) = some 200 ∧
      (s.thread true).result.map (·.status) = some 200 ∧ consumed refreshAndLogout s "t0" ≤ 1 := by
  have hfresh : FreshStart refreshAndLogout oneSession := by
    refine ⟨fun i j t hi hj => ?_, fun i t hi r hr => ?_⟩
    · -- only the refresh issues a token
      cases i with
      | true => cases hi
      | false =>
        cases j with
        | true => cases hj
        | false => rfl
    · obtain rfl := List.mem_singleton.mp hr
      cases i with
      | false => cases hi; decide
      | true => cases hi
  obtain ⟨s, hs, hstatus⟩ := System.reachable_of_exec (tokenSystem plainServices refreshAndLogout)
    (deleteFinds refreshAndLogout)
    (fun s => ((s.thread false).result.map (·.status), (s.thread true).result.map (·.status)))
    [.start false, .start true, .answer false { now := 5 }, .answer false { now := 5 },
      .answer false { now := 5 }, .answer true { now := 5 }, .answer false { now := 5, uuid := 8 }]
    (s := idlePool oneSession) (a := (some 200, some 200)) ⟨hfresh, fun _ => rfl⟩ (by decide +kernel)
  exact ⟨s, hs.mono fun _ _ _ => trivial, congrArg Prod.fst hstatus, congrArg Prod.snd hstatus,
    (consumed_le_one hs "t0").1⟩

/-- **Two refreshes racing on one token both get a new one**: both look it up before either deletes it,
and the second DELETE removes nothing. -/
theorem refresh_race :
    ¬ ∀ (ι : Type) [Fintype ι] [DecidableEq ι] (svc : Services) (req : ι → TokenRequest)
        (s : RequestPool ι), (tokenSystem svc req).Reachable (fun s e => succeeds svc s e) s →
      ∀ t, consumed req s t ≤ 1 := by
  intro hclaim
  have hfresh : FreshStart twoRefreshes oneSession := by
    refine ⟨fun i j t hi hj => ?_, fun i t hi r hr => ?_⟩
    · cases i <;> cases j <;> first | rfl | (cases hi; exact absurd hj (by decide))
    · obtain rfl := List.mem_singleton.mp hr
      cases i <;> (cases hi; decide)
  obtain ⟨s, hs, htwo⟩ := System.reachable_of_exec (tokenSystem plainServices twoRefreshes)
    (succeeds plainServices) (fun s => consumed twoRefreshes s "t0")
    [.start false, .start true, .answer false { now := 5 }, .answer true { now := 5 },
      .answer false { now := 5 }, .answer true { now := 5 }, .answer false { now := 5 },
      .answer true { now := 5 }, .answer false { now := 5, uuid := 8 },
      .answer true { now := 5, uuid := 9 }]
    (s := idlePool oneSession) (a := 2) ⟨hfresh, fun _ => rfl⟩ (by decide +kernel)
  have hone := hclaim Bool plainServices twoRefreshes s hs "t0"
  omega

end Locus.Server
