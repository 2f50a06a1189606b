import Locus.Server.Accounts
import Locus.Server.Constraints
import Locus.Server.Votes

/-!
# The list of votes

A vote that was created is listed once in every later list of its community, for ever and with the columns it was
created with. `VoteCard` offers its buttons for the status `active`, and no statement of the server writes it: a vote
is `open` and stays so. So the card of a vote that was created never offers a choice (`vote_never_offered`).
-/

namespace Locus.App

open Lib Server

/-! ### What the card offers -/

namespace VoteCard

/-- What the buttons of a card read of a `Vote`. -/
structure Vote where
  id : Uuid
  status : String
  /-- `undefined` where the JSON has no such key -/
  myBallot : Option String
deriving DecidableEq

/-- A row of `GET /communities/:id/votes`, that has no `my_ballot`. -/
def Vote.ofRow (row : VoteRow) : Vote := { id := row.id, status := row.status, myBallot := none }

/-- `vote.status === 'active'` -/
def isActive (vote : Vote) : Bool := vote.status == "active"

/-- `!!vote.my_ballot` -/
def userVoted (vote : Vote) : Bool := vote.myBallot.any (· != "")

/-- The buttons under `isActive && !userVoted`, each of which casts its choice. -/
def choices (vote : Vote) : List String := if isActive vote && !userVoted vote then ["yes", "no", "abstain"] else []

theorem choices_open {row : VoteRow} (h : row.status = "open") : choices (Vote.ofRow row) = [] := by
  have hinactive : isActive (Vote.ofRow row) = false := by
    rw [isActive, Vote.ofRow, h]
    rfl
  rw [choices, hinactive, Bool.false_and, if_neg Bool.false_ne_true]

end VoteCard

section
variable {svc : Services} {db db' : Db} {c : Uuid} {row : VoteRow} {log : List StmtCall}

/-! ### What is kept of the votes -/

def VotesOpen (db : Db) : Prop := ∀ v ∈ db.votes, v.status = "open"

theorem execOk_votesOpen {x : Tick} {q : Stmt} {a : Answer q} (h : VotesOpen db)
    (hok : execOk svc x db q = .ok (a, db')) : VotesOpen db' := by
  obtain ⟨hvotes, -⟩ | ⟨row, hopen, rfl⟩ | ⟨voteId, u, choice, rfl⟩ := execOk_votes hok
  · rw [VotesOpen, hvotes]
    exact h
  · intro v hv
    rcases List.mem_append.mp hv with hv | hv
    · exact h v hv
    · rw [List.mem_singleton.mp hv]
      exact hopen
  · obtain ⟨_, rfl⟩ := execOk_frame hok
    exact h

theorem exec_votesOpen (x : Tick) (h : VotesOpen db) (q : Stmt) : VotesOpen (exec svc x db q).2 := by
  obtain ⟨a, db', hok, hexec⟩ | ⟨e, hexec, -⟩ := exec_cases svc x db q
  · rw [hexec]
    exact execOk_votesOpen h hok
  · rw [hexec]
    exact h

def VoteThere (db : Db) (call : StmtCall) : Prop :=
  ∀ communityId title description createdBy closesAt row,
    call = ⟨.insertVote communityId title description createdBy closesAt, .ok row⟩ →
      row ∈ db.votes ∧ communityId = .uuid row.communityId

theorem VoteThere.later {call : StmtCall} (h : db.Grows db') (hcall : VoteThere db call) : VoteThere db' call := by
  intro communityId title description createdBy closesAt row heq
  obtain ⟨hrow, hid⟩ := hcall communityId title description createdBy closesAt row heq
  exact ⟨h.votes.subset hrow, hid⟩

theorem exec_voteThere {x : Tick} (q : Stmt) : VoteThere (exec svc x db q).2 ⟨q, (exec svc x db q).1⟩ := by
  intro communityId title description createdBy closesAt row hcall
  obtain ⟨rfl, hanswer⟩ := Prog.Call.mk.inj hcall
  obtain ⟨a, db', hok, hexec⟩ | ⟨e, hexec, -⟩ :=
    exec_cases svc x db (.insertVote communityId title description createdBy closesAt)
  · rw [hexec] at hanswer ⊢
    cases eq_of_heq hanswer
    obtain ⟨hid, -, -, rfl⟩ := insertVote_ok hok
    exact ⟨List.mem_append_right _ (List.mem_singleton_self _), hid⟩
  · rw [hexec] at hanswer
    cases eq_of_heq hanswer

/-! ### The list -/

/-- A list of the votes of `c` has `row` once, and open votes only. -/
def ListedOnce (c : Uuid) (row : VoteRow) (call : StmtCall) : Prop :=
  ∀ rows, call = ⟨.selectVotes (.uuid c), .ok rows⟩ →
    rows.filter (·.id = row.id) = [row] ∧ ∀ v ∈ rows, v.communityId = c ∧ v.status = "open"

theorem selectVotes_once {x : Tick} {rows : List VoteRow} (hdb : Constrained db) (hopen : VotesOpen db)
    (hrow : row ∈ db.votes) (h : selectVotes x db (.uuid row.communityId) = .ok rows) :
    rows.filter (·.id = row.id) = [row] ∧ ∀ v ∈ rows, v.communityId = row.communityId ∧ v.status = "open" := by
  obtain rfl := Except.ok.inj h
  have hperm := newestFirst_perm x (·.id) (·.createdAt) (db.votes.filter (·.communityId = row.communityId))
  refine ⟨?_, fun v hv => ?_⟩
  · have hone : (db.votes.filter (·.communityId = row.communityId)).filter (·.id = row.id) = [row] := by
      rw [List.filter_comm, filter_of_nodup_map hdb.votes_pkey hrow]
      exact List.filter_cons_of_pos (decide_eq_true rfl)
    have hfiltered := hperm.filter (·.id = row.id)
    rw [hone] at hfiltered
    exact List.perm_singleton.mp hfiltered
  · obtain ⟨hv, hc⟩ := List.mem_filter.mp (hperm.subset hv)
    exact ⟨of_decide_eq_true hc, hopen v hv⟩

theorem exec_listedOnce {x : Tick} (hdb : Constrained db) (hopen : VotesOpen db) (hrow : row ∈ db.votes)
    (hc : row.communityId = c) (q : Stmt) : ListedOnce c row ⟨q, (exec svc x db q).1⟩ := by
  subst hc
  intro rows hcall
  obtain ⟨rfl, hanswer⟩ := Prog.Call.mk.inj hcall
  obtain ⟨db', hok⟩ := exec_ok (eq_of_heq hanswer)
  exact selectVotes_once hdb hopen hrow (ok_of_map hok)

/-! ### Where the answers come from -/

theorem postCommunitiesVotes_row {env : NodeEnv} {authorization : Option String} {id : IdParam} {body : Json}
    (h : (postCommunitiesVotes svc env authorization id body).Path log (.done ⟨201, .vote row⟩)) :
    ∃ title description createdBy closesAt, ⟨.insertVote id title description createdBy closesAt, .ok row⟩ ∈ log := by
  cases hauth : authenticate svc env authorization with
  | none =>
    obtain ⟨text, hrefused⟩ := authMiddleware_none svc env _ hauth
    rw [postCommunitiesVotes, hrefused] at h
    obtain ⟨-, hdone⟩ := Prog.path_done.mp h
    cases hdone
  | some user =>
    rw [postCommunitiesVotes, authMiddleware_some svc env _ hauth] at h
    split at h
    · obtain ⟨-, hdone⟩ := Prog.path_done.mp h
      cases hdone
    obtain ⟨-, hawaits⟩ | ⟨row', log', rfl, hrest⟩ | ⟨err, -, hdone⟩ := catch500_path h
    · exact (not_awaits_done hawaits).elim
    · cases (catch500_pure_path hrest).2
      exact ⟨_, _, _, _, List.mem_cons_self⟩
    · cases hdone

theorem getCommunitiesVotes_rows {id : IdParam} {rows : List VoteRow}
    (h : (getCommunitiesVotes id).Path log (.done ⟨200, .votes rows⟩)) : ⟨.selectVotes id, .ok rows⟩ ∈ log := by
  obtain ⟨-, hawaits⟩ | ⟨rows', log', rfl, hrest⟩ | ⟨err, -, hdone⟩ := catch500_path h
  · exact (not_awaits_done hawaits).elim
  · cases (catch500_pure_path hrest).2
    exact List.mem_cons_self
  · cases hdone

end

/-! ### Runs -/

section
variable {ι : Type} [DecidableEq ι] {svc : Services} {publicBaseUrl : String} {env : ι → NodeEnv} {req : ι → Request}
  {Init : Db → Prop} {C : WholeServer ι → PoolEvent ι Tick → Prop} {s s' : WholeServer ι}
  {tr : List (PoolEvent ι Tick)}

/-- **A vote that was created is listed for ever, and never offered**: every later list of its community has its
row once, with nothing of it changed, and no card of the list has a button to cast a choice. -/
theorem vote_never_offered (hinit : ∀ db, Init db → Constrained db) (hopen : ∀ db, Init db → VotesOpen db)
    (h : (wholeServer svc publicBaseUrl env req Init).Reachable C s) {i j : ι} {authorization : Option String}
    {c : Uuid} {body : Json} {row : VoteRow} (hcreate : req i = .api (.postCommunitiesVotes authorization (.uuid c) body))
    (hi : (s.thread i).result = some (some ⟨201, .vote row⟩)) (hreq : req j = .api (.getCommunitiesVotes (.uuid c)))
    (hidle : s.thread j = .idle) (hrun : (wholeServer svc publicBaseUrl env req Init).Run C s tr s')
    {rows : List VoteRow} (hj : (s'.thread j).result = some (some ⟨200, .votes rows⟩)) :
    rows.filter (·.id = row.id) = [row] ∧ ∀ v ∈ rows, v.communityId = c ∧ VoteCard.choices (.ofRow v) = [] := by
  obtain ⟨hvotes, hthere⟩ := Pool.answered (J := VotesOpen) (T := VoteThere) (fun db _ h₀ => hopen db h₀.1)
    (fun x db q call _ hcall => hcall.later (exec_grows svc x db q)) (fun x db q _ => exec_voteThere q)
    (fun i x db q k log _ _ hdb => exec_votesOpen x hdb q) h
  have hpath := result_path (wholeServer_path h) hi
  rw [hcreate] at hpath
  obtain ⟨title, description, createdBy, closesAt, hcall⟩ := postCommunitiesVotes_row (api_path svc (env i) hpath)
  obtain ⟨hrow, hc⟩ := hthere i _ hcall _ _ _ _ _ _ rfl
  obtain rfl := IdParam.uuid.inj hc
  have hnone : ∀ i, i = j → ∀ call ∈ (s.thread i).log, ListedOnce row.communityId row call := by
    rintro i rfl call hcall
    rw [hidle] at hcall
    cases hcall
  obtain ⟨hpath', -, hlisted⟩ := Pool.answered_run
    (J := fun db => Constrained db ∧ VotesOpen db ∧ row ∈ db.votes) (T := fun _ => ListedOnce row.communityId row) (· = j)
    (fun _ _ _ _ _ hcall => hcall) (fun x db q hdb => exec_listedOnce hdb.1 hdb.2.1 hdb.2.2 rfl q)
    (fun i x db q k log hpath _ hdb => ⟨exec_constrained x hdb.1 (hpath.always (wholeServer_sends i)).1.roleFits,
      exec_votesOpen x hdb.2.1 q, (exec_grows svc x db q).votes.subset hdb.2.2⟩)
    (wholeServer_path h) ⟨constraints_hold hinit h, hvotes, hrow⟩ hnone hrun
  have hend := result_path hpath' hj
  rw [hreq] at hend
  obtain ⟨hone, hall⟩ := hlisted j rfl _ (getCommunitiesVotes_rows (api_path svc (env j) hend)) _ rfl
  exact ⟨hone, fun v hv => ⟨(hall v hv).1, VoteCard.choices_open (hall v hv).2⟩⟩

/-- Ana creates a vote, then the list is asked for. -/
def anaAsks : Bool → Request
  | false => .api (.postCommunitiesVotes (some "Bearer 1.0.ana@x.org") (.uuid 10) (.obj [("title", .str "Paint it?")]))
  | true => .api (.getCommunitiesVotes (.uuid 10))

def voteOf : Option (Option Response) → Option VoteRow :=
  dataOf 201 fun | .vote row => some row | _ => none

theorem voteOf_some {r : Option (Option Response)} {row : VoteRow} (h : voteOf r = some row) :
    r = some (some ⟨201, .vote row⟩) :=
  dataOf_some (by rintro ⟨⟩ a ⟨⟩; rfl) h

def votesOf : Option (Option Response) → Option (List VoteRow) :=
  dataOf 200 fun | .votes rows => some rows | _ => none

theorem votesOf_some {r : Option (Option Response)} {rows : List VoteRow} (h : votesOf r = some rows) :
    r = some (some ⟨200, .votes rows⟩) :=
  dataOf_some (by rintro ⟨⟩ a ⟨⟩; rfl) h

theorem vote_never_offered_ana : ∃ (row : VoteRow) (rows : List VoteRow), row.title = "Paint it?" ∧
    rows.filter (·.id = row.id) = [row] ∧ ∀ v ∈ rows, v.communityId = 10 ∧ VoteCard.choices (.ofRow v) = [] := by
  let M := wholeServer plainServices "" (fun _ => ⟨5, "", 0⟩) anaAsks (· = loft)
  obtain ⟨s, hrun, hfacts⟩ := wholeServer_of_exec plainServices "" (fun _ => ⟨5, "", 0⟩) anaAsks loft
    (fun s => ((voteOf (s.thread false).result).map (·.title), isIdle (s.thread true),
      (M.exec (fun _ _ => true) s [.start true, .answer true {}]).map fun s' =>
        (votesOf (s'.thread true).result).isSome))
    [.start false, .answer false { uuid := 12 }] (a := (some "Paint it?", true, some true)) (by decide +kernel)
  obtain ⟨hcreated, hrest⟩ := Prod.mk.inj hfacts
  obtain ⟨hidle, hlisted⟩ := Prod.mk.inj hrest
  obtain ⟨row, hrow, htitle⟩ := Option.map_eq_some_iff.mp hcreated
  obtain ⟨s', hexec, hsome⟩ := Option.map_eq_some_iff.mp hlisted
  obtain ⟨rows, hrows⟩ := Option.isSome_iff_exists.mp hsome
  exact ⟨row, rows, htitle, vote_never_offered (by rintro _ rfl; exact constrained_loft)
    (by rintro _ rfl v hv; cases hv) ((wholeServer_start ..).trans hrun) rfl (voteOf_some hrow) rfl
    (idle_of_isIdle hidle) ((System.Run.of_exec hexec).mono fun _ _ _ => trivial) (votesOf_some hrows)⟩

end

end Locus.App
