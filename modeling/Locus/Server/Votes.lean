import Locus.Lib.LastWrite
import Locus.Server.Api

/-!
# Votes

Casts and results of votes, among any other requests, their statements interleaved in any way. The table
`vote_casts` holds the last choice of each user on each vote: a cast is one statement, which adds the row of
a user or replaces its choice. So the results of a vote count each user once, at his last choice
(`results_tally`).

Nothing else is looked at. The route of a cast reads neither the community in its path nor `closes_at`, and
no route reads `community_members`: any user can cast on any vote at any time (`results_change`,
`late_outsider`).
-/

namespace Locus.Server

open Lib

/-! ### Ballots -/

/-- A choice of a user on a vote, as `VARCHAR(50)` holds it. -/
structure Ballot where
  voteId : Uuid
  userId : Uuid
  choice : Option String
deriving DecidableEq

/-- The ballot that a request asks to cast; there is none where `String(choice)` throws. -/
def ballotOf (svc : Services) (env : NodeEnv) : ApiRequest → Option Ballot
  | .postVotesCast authorization _ (.uuid v) body => do
    let user ← authenticate svc env authorization
    let choice ← choiceOf body
    match choice.mapM (varchar 50) with
    | .ok choice => some ⟨v, user.id, choice⟩
    | .error _ => none
  | _ => none

def ballotsOn (v : Uuid) (log : List Ballot) : List (Uuid × Option String) :=
  (log.filter (·.voteId = v)).map fun b => (b.userId, b.choice)

/-- The rows of a vote in `vote_casts`. -/
def castRows (db : Db) (v : Uuid) : List VoteCastRow := db.voteCasts.filter (·.voteId = v)

/-- The results are those of a log: one row for each choice that some user chose last, with the number of
these users, and every user who cast is counted in one row. -/
structure Tally (results : List ResultRow) (log : List (Uuid × Option String)) : Prop where
  distinct : (results.map (·.choice)).Nodup
  counted : ∀ row, row ∈ results ↔ 0 < row.count ∧
    row.count = ((written log).filter fun u => lastWrite u log = some row.choice).card
  total : (results.map (·.count)).sum = (written log).card

theorem ballotsOn_append (v : Uuid) (log log' : List Ballot) :
    ballotsOn v (log ++ log') = ballotsOn v log ++ ballotsOn v log' := by
  simp only [ballotsOn, List.filter_append, List.map_append]

theorem setChoice_voteId (v u : Uuid) (choice : Option String) (row : VoteCastRow) :
    (setChoice v u choice row).voteId = row.voteId := by
  unfold setChoice
  split <;> rfl

theorem setChoice_userId (v u : Uuid) (choice : Option String) (row : VoteCastRow) :
    (setChoice v u choice row).userId = row.userId := by
  unfold setChoice
  split <;> rfl

theorem castRows_map (db : Db) (v v' u : Uuid) (choice : Option String) :
    castRows { db with voteCasts := db.voteCasts.map (setChoice v' u choice) } v =
      (castRows db v).map (setChoice v' u choice) := by
  simp only [castRows, List.filter_map]
  congr 1
  refine List.filter_congr fun row _ => ?_
  simp only [Function.comp, setChoice_voteId]

theorem castRows_map_other (db : Db) {v v' : Uuid} (h : v' ≠ v) (u : Uuid) (choice : Option String) :
    (castRows db v).map (setChoice v' u choice) = castRows db v := by
  refine (List.map_congr_left fun row hrow => ?_).trans (List.map_id _)
  have hv : row.voteId = v := by simpa [castRows] using (List.mem_filter.mp hrow).2
  exact if_neg fun hpair => h (hpair.1.symm.trans hv)

theorem tally_groupByChoice {rows : List VoteCastRow} {log : List (Uuid × Option String)}
    (h : Represents (·.userId) (·.choice) rows log) : Tally (groupByChoice rows) log := by
  unfold groupByChoice
  refine ⟨?_, fun row => ?_, ?_⟩
  · rw [List.map_map, show ((·.choice) ∘ fun choice : Option String =>
      (⟨choice, (rows.filter (·.choice = choice)).length⟩ : ResultRow)) = id from rfl, List.map_id]
    exact List.nodup_dedup _
  · rw [← h.count]
    simp only [List.mem_map, List.mem_dedup]
    constructor
    · rintro ⟨choice, ⟨r, hr, rfl⟩, rfl⟩
      exact ⟨List.length_pos_of_mem (List.mem_filter.mpr ⟨hr, decide_eq_true rfl⟩), rfl⟩
    · rintro ⟨hpos, hcount⟩
      rw [hcount] at hpos
      obtain ⟨r, hr⟩ := List.exists_mem_of_length_pos hpos
      obtain ⟨hmem, hchoice⟩ := List.mem_filter.mp hr
      refine ⟨row.choice, ⟨r, hmem, of_decide_eq_true hchoice⟩, ?_⟩
      rw [← hcount]
  · rw [List.map_map, ← h.length]
    exact sum_group_lengths _ rows

/-! ### A statement on the votes -/

theorem execOk_votes {svc : Services} {tick : Tick} {db db' : Db} {q : Stmt} {a : Answer q}
    (h : execOk svc tick db q = .ok (a, db')) :
    (db'.votes = db.votes ∧ db'.voteCasts = db.voteCasts) ∨
    (∃ row : VoteRow, row.status = "open" ∧ db' = { db with votes := db.votes ++ [row] }) ∨
    ∃ voteId u choice, q = .upsertVoteCast voteId u choice := by
  have hframe := execOk_frame h
  cases q with
  | insertVote communityId title description createdBy closesAt =>
    obtain ⟨-, hopen, -, rfl⟩ := insertVote_ok h
    exact .inr (.inl ⟨_, hopen, rfl⟩)
  | upsertVoteCast voteId u choice => exact .inr (.inr ⟨voteId, u, choice, rfl⟩)
  | insertUser | updatePasswordHash | insertRefreshToken | deleteRefreshToken | insertCommunity
  | insertMember | insertMemberOnConflict | incrementMemberCount | insertProperty | readNotification
  | readAllNotifications | updateUser =>
    obtain ⟨_, rfl⟩ := hframe
    exact .inl ⟨rfl, rfl⟩
  | _ =>
    obtain rfl := hframe
    exact .inl ⟨rfl, rfl⟩

theorem castRows_upsert {tick : Tick} {db db' : Db} {voteId : IdParam} {u : Uuid} {choice : Option String}
    {a : Unit} (h : upsertVoteCast tick db voteId u choice = .ok (a, db')) :
    ∃ v stored, voteId = .uuid v ∧ choice.mapM (varchar 50) = .ok stored ∧ db'.votes = db.votes ∧
      (∀ v', v ≠ v' → castRows db' v' = castRows db v') ∧
      (((∃ row ∈ castRows db v, row.userId = u) ∧
          castRows db' v = (castRows db v).map (setChoice v u stored)) ∨
        ((∀ row ∈ castRows db v, row.userId ≠ u) ∧ (∃ vote ∈ db.votes, vote.id = v) ∧
          ∃ row : VoteCastRow, row.voteId = v ∧ row.userId = u ∧ row.choice = stored ∧
            db'.voteCasts = db.voteCasts ++ [row] ∧ castRows db' v = castRows db v ++ [row])) := by
  obtain ⟨v, stored, rows, rfl, hstored, rfl, ⟨⟨row, hrow, hv, hu⟩, rfl⟩ |
    ⟨hnew, hvote, -, row, hv, hu, hc, rfl⟩⟩ := upsertVoteCast_ok h
  · refine ⟨v, stored, rfl, hstored, rfl, fun v' hv' => ?_, .inl ⟨⟨row, ?_, hu⟩, castRows_map ..⟩⟩
    · rw [castRows_map, castRows_map_other db hv']
    · simpa [castRows, hv] using hrow
  · refine ⟨v, stored, rfl, hstored, rfl, fun v' hv' => ?_, .inr ⟨fun r hr hru => ?_, hvote, row, hv, hu, hc,
      rfl, ?_⟩⟩
    · simp [castRows, hv, hv']
    · obtain ⟨hmem, hrv⟩ := List.mem_filter.mp hr
      exact hnew r hmem ⟨of_decide_eq_true hrv, hru⟩
    · simp [castRows, hv]

/-! ### A cast in flight -/

theorem postVotesCast_always (svc : Services) (env : NodeEnv) (authorization : Option String)
    (id voteId : IdParam) (body : Json) :
    (postVotesCast svc env authorization id voteId body).Always fun q k =>
      (∃ u choice, q = .upsertVoteCast voteId u choice ∧ choiceOf body = some choice) ∧
      ∀ a, k a = .done (match a with
        | .ok _ => ⟨200, .success⟩
        | .error err => failure 500 err.message) := by
  refine authMiddleware_induction svc env authorization (fun _ => trivial) fun user => ?_
  refine catch500_coerced trivial fun choice hchoice => ?_
  refine ⟨⟨⟨user.id, choice, rfl, hchoice⟩, fun a => ?_⟩, fun a => ?_⟩
  · cases a <;> rfl
  · cases a <;> trivial

section
variable {ι : Type} [DecidableEq ι] (svc : Services) (env : ι → NodeEnv) (req : ι → ApiRequest)

/-- The ballot that an event casts: it answers a cast with 200. -/
def castAt (s : RequestPool ι) : ApiEvent ι → Option Ballot
  | .pool (.answer i x) =>
    let response := (Pool.step (fun i => (req i).handler svc (env i)) (exec svc) s (.answer i x)).bind
      fun s' => (s'.thread i).result
    if response.any (·.status = 200) then ballotOf svc (env i) (req i) else none
  | _ => none

variable {svc env req} {Init : Db → Prop}

omit [DecidableEq ι] in
theorem cast_point {s : RequestPool ι} (hpath : Pool.OnPath (fun i => (req i).handler svc (env i)) s) {i : ι}
    {authorization : Option String} {id voteId : IdParam} {body : Json}
    (hreq : req i = .postVotesCast authorization id voteId body) {q : Stmt}
    {k : Except Thrown (Answer q) → Handler} {log : List (Prog.Call Stmt Answer Thrown)}
    (hi : s.thread i = .live (.query q k) log) :
    (∃ u choice, q = .upsertVoteCast voteId u choice ∧ choiceOf body = some choice) ∧
      ∀ a, k a = .done (match a with
        | .ok _ => ⟨200, .success⟩
        | .error err => failure 500 err.message) := by
  have hcast : ((req i).handler svc (env i)).Path log (.query q k) := (hpath i _ _ hi).1
  rw [hreq] at hcast
  exact (hcast.always (postVotesCast_always svc (env i) authorization id voteId body)).1

/-- **A step on the votes**: it answers a cast with 200 and writes its ballot, or it casts none, leaves
`vote_casts` as it was, and opens at most a vote. -/
theorem votes_step {s s' : RequestPool ι} {e : ApiEvent ι}
    (hpath : Pool.OnPath (fun i => (req i).handler svc (env i)) s)
    (h : (apiPool svc env req Init).step s e = some s') :
    (castAt svc env req s e = none ∧ s'.db.voteCasts = s.db.voteCasts ∧
      (s'.db.votes = s.db.votes ∨
        ∃ row : VoteRow, row.status = "open" ∧ s'.db.votes = s.db.votes ++ [row])) ∨
    ∃ i x authorization id v u text choice body, e = .pool (.answer i x) ∧
      req i = .postVotesCast authorization id (.uuid v) body ∧
      (authenticate svc (env i) authorization).map (·.id) = some u ∧
      choiceOf body = some text ∧ text.mapM (varchar 50) = .ok choice ∧
      castAt svc env req s e = some ⟨v, u, choice⟩ ∧ (s'.thread i).result = some ⟨200, .success⟩ ∧
      upsertVoteCast x s.db (.uuid v) u text = .ok ((), s'.db) := by
  cases e with
  | elsewhere users =>
    cases h
    exact .inl ⟨rfl, rfl, .inl rfl⟩
  | pool e =>
    obtain ⟨i, rfl, -, rfl⟩ | ⟨i, x, q, k, log, rfl, hi, hs'⟩ := Pool.step_cases h
    · exact .inl ⟨rfl, rfl, .inl rfl⟩
    have hsent := ((hpath i _ _ hi).1.always (handler_sends svc (env i) (req i))).1
    have hat : castAt svc env req s (.pool (.answer i x)) =
        if (s'.thread i).result.any (·.status = 200) then ballotOf svc (env i) (req i) else none := by
      have hstep : Pool.step (fun i => (req i).handler svc (env i)) (exec svc) s (.answer i x) = some s' := h
      simp only [castAt, hstep, Option.bind_some]
    by_cases hcast : ∃ voteId u choice, q = .upsertVoteCast voteId u choice
    · obtain ⟨voteId, u, choice, rfl⟩ := hcast
      obtain ⟨authorization, id, body, hreq, hu, hchoice⟩ := hsent
      have hk := (cast_point hpath hreq hi).2
      obtain ⟨a, db', hok, hexec⟩ | ⟨err, hexec, -⟩ := exec_cases svc x s.db (.upsertVoteCast voteId u choice)
      · rw [hexec, hk] at hs'
        have hresult : (s'.thread i).result = some ⟨200, .success⟩ := by
          rw [hs', Pool.goto_self]
          rfl
        obtain ⟨v, stored, rfl, hstored, -⟩ := castRows_upsert hok
        refine .inr ⟨i, x, authorization, id, v, u, choice, stored, body, rfl, hreq, hu, hchoice, hstored, ?_,
          hresult, ?_⟩
        · obtain ⟨user, huser, rfl⟩ := Option.map_eq_some_iff.mp hu
          rw [hat, hresult, hreq]
          simp [ballotOf, huser, hchoice, hstored]
        · rw [hs']
          exact hok
      · rw [hexec, hk] at hs'
        refine .inl ⟨?_, by rw [hs']; rfl, .inl (by rw [hs']; rfl)⟩
        rw [hat, hs', Pool.goto_self]
        rfl
    · -- the request is no cast
      have hnone : castAt svc env req s (.pool (.answer i x)) = none := by
        rw [hat]
        split
        swap
        · rfl
        unfold ballotOf
        split
        swap
        · rfl
        rename_i authorization id v body hreq
        obtain ⟨u, choice, hq, -⟩ := (cast_point hpath hreq hi).1
        exact absurd ⟨_, u, choice, hq⟩ hcast
      refine .inl ⟨hnone, ?_⟩
      obtain ⟨a, db', hok, hexec⟩ | ⟨err, hexec, -⟩ := exec_cases svc x s.db q
      · rw [hexec] at hs'
        rw [hs', Pool.goto_db]
        obtain ⟨hvotes, hcasts⟩ | ⟨row, hopen, rfl⟩ | hcast' := execOk_votes hok
        · exact ⟨hcasts, .inl hvotes⟩
        · exact ⟨rfl, .inr ⟨row, hopen, rfl⟩⟩
        · exact absurd hcast' hcast
      · rw [hexec] at hs'
        rw [hs']
        exact ⟨rfl, .inl rfl⟩

/-- **Each vote holds its last ballots**: a step keeps this for every vote. -/
theorem represents_step {s s' : RequestPool ι} {e : ApiEvent ι} {log : List Ballot} {v : Uuid}
    (hpath : Pool.OnPath (fun i => (req i).handler svc (env i)) s)
    (hs : Represents (·.userId) (·.choice) (castRows s.db v) (ballotsOn v log))
    (h : (apiPool svc env req Init).step s e = some s') :
    Represents (·.userId) (·.choice) (castRows s'.db v)
      (ballotsOn v (log ++ (castAt svc env req s e).toList)) := by
  obtain ⟨hnone, hcasts, -⟩ | ⟨i, x, authorization, id, v', u, text, choice, body, -, -, -, -, hchoice, hsome, -,
    hok⟩ := votes_step hpath h
  · rw [hnone, Option.toList_none, List.append_nil, castRows, hcasts]
    exact hs
  · obtain ⟨v'', stored, hv, hstored, -, hother, hrows⟩ := castRows_upsert hok
    cases hv
    rw [hchoice] at hstored
    cases hstored
    rw [hsome, ballotsOn_append]
    by_cases hvv : v' = v
    · subst hvv
      rw [show ballotsOn v' (some ⟨v', u, choice⟩ : Option Ballot).toList = [(u, choice)] by
        simp [ballotsOn]]
      obtain ⟨hthere, hrows⟩ | ⟨hnew, -, row, -, rfl, rfl, -, hrows⟩ := hrows
      · rw [hrows]
        refine hs.replace hthere (fun row => setChoice_userId ..) fun row hrow => ?_
        have hv : row.voteId = v' := of_decide_eq_true (List.mem_filter.mp hrow).2
        simp only [setChoice, hv, true_and]
        split <;> rfl
      · rw [hrows]
        exact hs.add hnew
    · rw [hother v hvv]
      simpa [ballotsOn, hvv] using hs

theorem getVotesResults_always (id voteId : IdParam) :
    (getVotesResults id voteId).Always fun q k => ∃ h : q = .selectVoteResults voteId,
      ∀ rows, k (.ok (h ▸ rows)) = .done ⟨200, .results rows⟩ :=
  ⟨⟨rfl, fun _ => rfl⟩, fun a => by cases a <;> trivial⟩

/-- **The results are the tally of the ballots**: in every run that starts without casts on `v`, the results
of `v` count the last ballot on `v` of every user, however the casts and the other requests interleave. -/
theorem results_tally {C : RequestPool ι → ApiEvent ι → Prop} {s₀ s s' : RequestPool ι}
    {tr : List (ApiEvent ι)} {i : ι} {id : IdParam} {v : Uuid} {x : Tick}
    (h₀ : (apiPool svc env req fun db => castRows db v = []).Init s₀)
    (hrun : (apiPool svc env req fun db => castRows db v = []).Run C s₀ tr s)
    (hreq : req i = .getVotesResults id (.uuid v)) (hx : x.fault = none)
    (hstep : (apiPool svc env req fun db => castRows db v = []).step s (.pool (.answer i x)) = some s') :
    ∃ results, (s'.thread i).result = some ⟨200, .results results⟩ ∧
      Tally results (ballotsOn v ((apiPool svc env req fun db => castRows db v = []).observe
        (castAt svc env req) s₀ tr)) := by
  have hrows : Represents (·.userId) (·.choice) (castRows s.db v) (ballotsOn v
      ((apiPool svc env req fun db => castRows db v = []).observe (castAt svc env req) s₀ tr)) := by
    clear hstep
    induction hrun with
    | nil =>
      rw [h₀.1]
      exact .nil
    | snoc hrun _ hstep ih =>
      rw [hrun.observe_snoc]
      exact represents_step (apiPool_onPath h₀ hrun) ih hstep
  have hanswer : Pool.step (fun i => (req i).handler svc (env i)) (exec svc) s (.answer i x) = some s' := hstep
  obtain ⟨q, k, log, hi, rfl⟩ := Pool.answer_cases hanswer
  have hpath : ((req i).handler svc (env i)).Path log (.query q k) := (apiPool_onPath h₀ hrun i _ _ hi).1
  rw [hreq] at hpath
  obtain ⟨rfl, hk⟩ := (hpath.always (getVotesResults_always id (.uuid v))).1
  have hexec : exec svc x s.db (.selectVoteResults (.uuid v)) =
      (.ok (groupByChoice (anyOrder x (·.id) (castRows s.db v))), s.db) := by
    rw [exec, hx]
    rfl
  refine ⟨groupByChoice (anyOrder x (·.id) (castRows s.db v)), ?_,
    tally_groupByChoice (hrows.perm (anyOrder_perm ..))⟩
  rw [hexec, Pool.goto_self]
  exact congrArg (fun p => Thread.result (.live (p.settle s.mem).2 _)) (hk _)

/-- Two users and a vote of the first one's community. -/
def oneVote : Db where
  users := [{ id := 1, email := "ana@x.org", name := none, passwordHash := none, createdAt := 0,
              updatedAt := 0 },
            { id := 2, email := "bo@x.org", name := none, passwordHash := none, createdAt := 0,
              updatedAt := 0 }]
  communities := [{ id := 10, name := "Loft", description := none, location := none, ownerId := 1,
                    memberCount := 1, createdAt := 0 }]
  communityMembers := [{ id := 11, communityId := 10, userId := 1, role := "owner", joinedAt := 0 }]
  votes := [{ id := 20, communityId := 10, title := "Paint", description := none, status := "open",
              createdBy := 1, createdAt := 0, closesAt := some 3 }]

/-- A cast on the vote, through the path of community `c`. -/
def castOn (user : String) (c : Uuid) (choice : String) : ApiRequest :=
  .postVotesCast (some ("Bearer " ++ user)) (.uuid c) (.uuid 20) (.obj [("choice", .str choice)])

/-- Ana casts, Bo casts, Ana changes her choice, and the results are asked for. -/
def twoVoters : ℕ → ApiRequest
  | 0 => castOn "1.0.ana@x.org" 10 "yes"
  | 1 => castOn "2.0.bo@x.org" 10 "no"
  | 2 => castOn "1.0.ana@x.org" 10 "no"
  | _ => .getVotesResults (.uuid 10) (.uuid 20)

theorem results_tally_two_voters :
    ∃ (s s' : RequestPool ℕ) (results : List ResultRow),
      (apiPool plainServices (fun _ => ⟨5, "", 0⟩) twoVoters fun db => castRows db 20 = []).step s
        (.pool (.answer 3 {})) = some s' ∧
      (s'.thread 3).result = some ⟨200, .results results⟩ ∧
      Tally results [(1, some "yes"), (2, some "no"), (1, some "no")] := by
  let M := apiPool plainServices (fun _ => ⟨5, "", 0⟩) twoVoters fun db => castRows db 20 = []
  let s₀ : RequestPool ℕ := ⟨oneVote, [], fun _ => .idle⟩
  let tr : List (ApiEvent ℕ) := [.pool (.start 0), .pool (.answer 0 { uuid := 30 }), .pool (.start 1),
    .pool (.start 2), .pool (.answer 1 { uuid := 31 }), .pool (.answer 2 { uuid := 32 }), .pool (.start 3)]
  have h₀ : M.Init s₀ := ⟨rfl, fun _ => rfl⟩
  obtain ⟨s', hbind⟩ : ∃ s', ((M.exec (fun _ _ => true) s₀ tr).bind fun s =>
      M.step s (.pool (.answer 3 {}))) = some s' := Option.isSome_iff_exists.mp (by decide +kernel)
  obtain ⟨s, hexec, hs'⟩ := Option.bind_eq_some_iff.mp hbind
  have hlog : M.observe (castAt plainServices (fun _ => ⟨5, "", 0⟩) twoVoters) s₀ tr =
      [⟨20, 1, some "yes"⟩, ⟨20, 2, some "no"⟩, ⟨20, 1, some "no"⟩] := by decide +kernel
  obtain ⟨results, hresult, htally⟩ := results_tally h₀ (.of_exec hexec) rfl rfl hs'
  exact ⟨s, s', results, hs', hresult, by rwa [hlog] at htally⟩

/-! ### Who can cast -/

def choiceIn (db : Db) (v u : Uuid) : Option (Option String) :=
  ((castRows db v).find? (·.userId = u)).map (·.choice)

def resultCount (db : Db) (v : Uuid) (choice : Option String) : ℕ :=
  ((castRows db v).filter (·.choice = choice)).length

/-- Every vote is open, and every cast is on a vote. -/
def VotesKept (db : Db) : Prop :=
  (∀ vote ∈ db.votes, vote.status = "open") ∧ ∀ row ∈ db.voteCasts, ∃ vote ∈ db.votes, vote.id = row.voteId

theorem votesKept_step {s s' : RequestPool ι} {e : ApiEvent ι}
    (hpath : Pool.OnPath (fun i => (req i).handler svc (env i)) s) (hs : VotesKept s.db)
    (h : (apiPool svc env req Init).step s e = some s') : VotesKept s'.db := by
  obtain ⟨hopen, hlinked⟩ := hs
  obtain ⟨-, hcasts, hvotes | ⟨row, hrow, hvotes⟩⟩ | ⟨i, x, authorization, id, v, u, text, choice, body, -, -,
    -, -, -, -, -, hok⟩ := votes_step hpath h
  · exact ⟨hvotes ▸ hopen, hvotes ▸ hcasts ▸ hlinked⟩
  · refine ⟨fun vote hvote => ?_, fun r hr => ?_⟩
    · rw [hvotes, List.mem_append, List.mem_singleton] at hvote
      rcases hvote with hvote | rfl
      · exact hopen vote hvote
      · exact hrow
    · obtain ⟨vote, hvote, hid⟩ := hlinked r (hcasts ▸ hr)
      exact ⟨vote, hvotes ▸ List.mem_append_left _ hvote, hid⟩
  · obtain ⟨v', stored, rows, -, -, hdb, hrows⟩ := upsertVoteCast_ok hok
    rw [hdb]
    refine ⟨hopen, fun r hr => ?_⟩
    obtain ⟨-, rfl⟩ | ⟨-, hvote, -, row, rfl, -, -, rfl⟩ := hrows
    · obtain ⟨r', hr', rfl⟩ := List.mem_map.mp hr
      rw [setChoice_voteId]
      exact hlinked r' hr'
    · rcases List.mem_append.mp hr with hr | hr
      · exact hlinked r hr
      · rw [List.mem_singleton.mp hr]
        exact hvote

theorem upsertVoteCast_succeeds {tick : Tick} {db : Db} {v u : Uuid} {choice stored : Option String}
    (hstored : choice.mapM (varchar 50) = .ok stored) (hvote : ∃ vote ∈ db.votes, vote.id = v)
    (huser : ∃ row ∈ db.users, row.id = u) (hfresh : ∀ row ∈ db.voteCasts, row.id ≠ tick.uuid) :
    ∃ db', upsertVoteCast tick db (.uuid v) u choice = .ok ((), db') := by
  have hid : db.voteCasts.any (·.id = tick.uuid) = false := by simpa using hfresh
  have hvote' : db.votes.any (·.id = v) = true := by simpa using hvote
  have huser' : db.users.any (·.id = u) = true := by simpa using huser
  simp only [upsertVoteCast, hstored, hid, hvote', huser']
  split
  · exact ⟨_, rfl⟩
  · exact ⟨_, rfl⟩

theorem choiceIn_upsert {tick : Tick} {db db' : Db} {v u : Uuid} {choice stored : Option String} {a : Unit}
    (h : upsertVoteCast tick db (.uuid v) u choice = .ok (a, db'))
    (hstored : choice.mapM (varchar 50) = .ok stored) (u' : Uuid) :
    choiceIn db' v u' = if u' = u then some stored else choiceIn db v u' := by
  obtain ⟨v', stored', hv, hstored', -, -, hrows⟩ := castRows_upsert h
  cases hv
  rw [hstored] at hstored'
  cases hstored'
  obtain ⟨⟨row, hrow, hu⟩, hrows⟩ | ⟨hnew, -, row, -, hu, hc, -, hrows⟩ := hrows
  · have hsame : ((fun r : VoteCastRow => decide (r.userId = u')) ∘ setChoice v u stored) =
        fun r => decide (r.userId = u') := by
      funext r
      simp only [Function.comp, setChoice_userId]
    rw [choiceIn, choiceIn, hrows, List.find?_map, hsame]
    cases hfind : (castRows db v).find? (·.userId = u') with
    | none =>
      rw [if_neg]
      · rfl
      · rintro rfl
        have := List.find?_eq_none.mp hfind row hrow
        simp [hu] at this
    | some r =>
      have hru : r.userId = u' := by simpa using List.find?_some hfind
      have hrv : r.voteId = v := of_decide_eq_true (List.mem_filter.mp (List.mem_of_find?_eq_some hfind)).2
      subst hru
      simp only [Option.map_some, setChoice, hrv, true_and]
      split <;> rfl
  · rw [choiceIn, choiceIn, hrows, List.find?_append]
    by_cases huu : u' = u
    · subst huu
      have hnone : (castRows db v).find? (·.userId = u') = none :=
        List.find?_eq_none.mpr fun r hr => by simpa using hnew r hr
      simp [hnone, hu, hc]
    · have hrow : ¬ row.userId = u' := fun hru => huu (hru.symm.trans hu)
      simp [huu, hrow]

/-- **Any user's ballot counts**: what changes the results of a vote is a cast with a valid access token,
answered with 200, on an open vote, and it changes the choice of its user alone. A cast by a user on an
existing vote is accepted, whatever community the path names, whoever the members are and whenever the vote
closes, if its choice has a text that `VARCHAR(50)` holds. -/
theorem results_change {s : RequestPool ι} (h : (apiPool svc env req VotesKept).Reachable System.Any s) :
    (∀ e s' v choice, (apiPool svc env req VotesKept).step s e = some s' →
      resultCount s'.db v choice ≠ resultCount s.db v choice →
      ∃ i x authorization id body user, e = .pool (.answer i x) ∧
        req i = .postVotesCast authorization id (.uuid v) body ∧
        authenticate svc (env i) authorization = some user ∧
        (s'.thread i).result = some ⟨200, .success⟩ ∧
        (∃ vote ∈ s.db.votes, vote.id = v ∧ vote.status = "open") ∧
        ∀ u, u ≠ user.id → choiceIn s'.db v u = choiceIn s.db v u) ∧
    ∀ (env : NodeEnv) (authorization : Option String) (id : IdParam) (v : Uuid) (body : Json)
      (user : AuthUser) (text choice : Option String) (x : ℕ → Tick) (cache : Cache),
      authenticate svc env authorization = some user → (∃ vote ∈ s.db.votes, vote.id = v) →
      (∃ row ∈ s.db.users, row.id = user.id) → choiceOf body = some text → text.mapM (varchar 50) = .ok choice →
      (x 0).fault = none → (∀ row ∈ s.db.voteCasts, row.id ≠ (x 0).uuid) →
      let out := (postVotesCast svc env authorization id (.uuid v) body).run (exec svc) x s.db cache
      out.1 = ⟨200, .success⟩ ∧ choiceIn out.2.1 v user.id = some choice := by
  obtain ⟨s₀, tr, h₀, hrun⟩ := h
  have hpath := apiPool_onPath ⟨h₀.1, h₀.2⟩ hrun
  have hkept : Pool.OnPath (fun i => (req i).handler svc (env i)) s ∧ VotesKept s.db := by
    refine hrun.invariant (fun s => Pool.OnPath (fun i => (req i).handler svc (env i)) s ∧ VotesKept s.db)
      ⟨Pool.onPath_of_idle h₀.2, h₀.1⟩ ?_
    rintro s e s' ⟨hpath, hs⟩ - hstep
    exact ⟨apiPool_onPath_step hpath hstep, votesKept_step hpath hs hstep⟩
  refine ⟨fun e s' v choice hstep hchange => ?_, ?_⟩
  · obtain ⟨-, hcasts, -⟩ | ⟨i, x, authorization, id, v', u, text, stored, body, rfl, hreq, hu, -, hstored, -,
      hresult, hok⟩ := votes_step hkept.1 hstep
    · exact absurd (by rw [resultCount, castRows, hcasts]; rfl) hchange
    · obtain ⟨v'', stored', hv, -, -, hother, hrows⟩ := castRows_upsert hok
      cases hv
      have hv : v' = v := by
        by_contra hne
        exact hchange (by rw [resultCount, hother v hne]; rfl)
      subst hv
      obtain ⟨user, huser, rfl⟩ := Option.map_eq_some_iff.mp hu
      refine ⟨i, x, authorization, id, body, user, rfl, hreq, huser, hresult, ?_, fun u' hu' => ?_⟩
      · have hvote : ∃ vote ∈ s.db.votes, vote.id = v' := by
          obtain ⟨⟨row, hrow, -⟩, -⟩ | ⟨-, hvote, -⟩ := hrows
          · obtain ⟨hmem, hrv⟩ := List.mem_filter.mp hrow
            obtain ⟨vote, hvote, hid⟩ := hkept.2.2 row hmem
            exact ⟨vote, hvote, hid.trans (of_decide_eq_true hrv)⟩
          · exact hvote
        obtain ⟨vote, hvote, hid⟩ := hvote
        exact ⟨vote, hvote, hid, hkept.2.1 vote hvote⟩
      · rw [choiceIn_upsert hok hstored, if_neg hu']
  · intro env authorization id v body user text choice x cache huser hvote hrow htext hstored hfault hfresh
    obtain ⟨db', hok⟩ := upsertVoteCast_succeeds hstored hvote hrow hfresh
    have hout : (postVotesCast svc env authorization id (.uuid v) body).run (exec svc) x s.db cache =
        (⟨200, .success⟩, db', cache) := by
      rw [postVotesCast, authMiddleware_some svc env _ huser, htext]
      exact catch500_run_ok (q := .upsertVoteCast (.uuid v) user.id text) (fun _ => pure ⟨200, .success⟩) cache
        hfault hok
    rw [hout]
    exact ⟨rfl, by rw [choiceIn_upsert hok hstored, if_pos rfl]⟩

/-- Bo, who is no member of the community, casts through the path of another community. -/
def outsider : ℕ → ApiRequest := fun _ => castOn "2.0.bo@x.org" 99 "yes"

theorem late_outsider_run : ∃ s s', (apiPool plainServices (fun _ => ⟨5, "", 0⟩) outsider VotesKept).Reachable
    System.Any s ∧ (apiPool plainServices (fun _ => ⟨5, "", 0⟩) outsider VotesKept).step s
      (.pool (.answer 0 { uuid := 30, now := 5 })) = some s' ∧
    resultCount s'.db 20 (some "yes") ≠ resultCount s.db 20 (some "yes") ∧
    s.db.communityMembers.map (·.userId) = [1] := by
  let M := apiPool plainServices (fun _ => ⟨5, "", 0⟩) outsider VotesKept
  let s₀ : RequestPool ℕ := ⟨oneVote, [], fun _ => .idle⟩
  have h₀ : M.Init s₀ := ⟨⟨by decide, by decide⟩, fun _ => rfl⟩
  obtain ⟨s, hs, hfacts⟩ := System.reachable_of_exec M (fun _ _ => true)
    (fun s => ((M.step s (.pool (.answer 0 { uuid := 30, now := 5 }))).map fun s' =>
      (resultCount s'.db 20 (some "yes"), resultCount s.db 20 (some "yes")),
      s.db.communityMembers.map (·.userId))) [.pool (.start 0)]
    (a := (some (1, 0), [1])) h₀ (by decide +kernel)
  obtain ⟨hstep, hmembers⟩ := Prod.mk.inj hfacts
  obtain ⟨s', hs', hcounts⟩ := Option.map_eq_some_iff.mp hstep
  obtain ⟨hafter, hbefore⟩ := Prod.mk.inj hcounts
  exact ⟨s, s', hs.mono fun _ _ _ => trivial, hs', by rw [hafter, hbefore]; decide, hmembers⟩

theorem results_change_outsider : ∃ s s' : RequestPool ℕ,
    resultCount s'.db 20 (some "yes") ≠ resultCount s.db 20 (some "yes") ∧
      choiceIn s'.db 20 1 = choiceIn s.db 20 1 := by
  obtain ⟨s, s', hs, hstep, hchange, -⟩ := late_outsider_run
  obtain ⟨i, x, authorization, id, body, user, he, hreq, huser, -, -, hother⟩ :=
    (results_change hs).1 _ s' 20 (some "yes") hstep hchange
  cases hreq
  have hbo : authenticate plainServices ⟨5, "", 0⟩ (some "Bearer 2.0.bo@x.org") =
    some ⟨2, "bo@x.org"⟩ := by decide +kernel
  cases huser.symm.trans hbo
  exact ⟨s, s', hchange, hother 1 (by decide)⟩

/-- **A late outsider is counted**: Bo is not in the community of the vote, his cast names another community
in its path, and the vote has closed. -/
theorem late_outsider :
    ¬ ∀ (ι : Type) [DecidableEq ι] (svc : Services) (env : ι → NodeEnv) (req : ι → ApiRequest)
        (s s' : RequestPool ι) (e : ApiEvent ι) (v : Uuid) (choice : Option String),
        (apiPool svc env req VotesKept).Reachable System.Any s →
        (apiPool svc env req VotesKept).step s e = some s' →
        resultCount s'.db v choice ≠ resultCount s.db v choice →
        ∃ i x authorization c body user, ∃ vote ∈ s.db.votes, e = .pool (.answer i x) ∧
          req i = .postVotesCast authorization (.uuid c) (.uuid v) body ∧
          authenticate svc (env i) authorization = some user ∧ vote.id = v ∧ vote.communityId = c ∧
          isMember s.db c user.id ∧ (∀ t, vote.closesAt = some t → x.now < t) ∧ vote.status = "open" := by
  intro hclaim
  obtain ⟨s, s', hs, hstep, hchange, hmembers⟩ := late_outsider_run
  obtain ⟨i, x, authorization, c, body, user, vote, -, -, hreq, huser, -, -, hmember, -, -⟩ :=
    hclaim ℕ plainServices _ outsider s s' _ 20 (some "yes") hs hstep hchange
  cases hreq
  have hbo : authenticate plainServices ⟨5, "", 0⟩ (some "Bearer 2.0.bo@x.org") =
    some ⟨2, "bo@x.org"⟩ := by decide +kernel
  cases huser.symm.trans hbo
  obtain ⟨m, hm, hpair⟩ := List.any_eq_true.mp hmember
  have hone : m.userId ∈ s.db.communityMembers.map (·.userId) := List.mem_map_of_mem hm
  rw [hmembers, List.mem_singleton] at hone
  simp [hone] at hpair

end

end Locus.Server
