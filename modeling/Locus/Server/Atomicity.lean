import Locus.Server.Handlers

/-!
# What a failed request leaves behind

The handlers of more than one statement send their statements one by one on the pool, without a
transaction. A statement that fails ends the handler with 500 and undoes nothing, so what the statements
before it wrote stays: a user without tokens, a deleted refresh token without its successor, a community
without its owner row, a member who is not counted (`LeftBehind`). Nothing stays exactly when no write
had succeeded before the failure (`aborted_leaves`).
-/

namespace Locus.Server

open Lib

/-- A request of a route with more than one statement. -/
inductive MultiRequest
  | register (env : NodeEnv) (body : Json)
  | login (env : NodeEnv) (body : Json)
  | refresh (env : NodeEnv) (body : Json)
  | create (env : NodeEnv) (authorization : Option String) (body : Json)
  | apply (env : NodeEnv) (authorization : Option String) (id : IdParam)

def MultiRequest.handler (svc : Services) : MultiRequest → Handler
  | register env body => postAuthRegister svc env body
  | login env body => postAuthLogin svc env body
  | refresh env body => postAuthRefresh svc env body
  | create env authorization body => postCommunities svc env authorization body
  | apply env authorization id => postCommunitiesApply svc env authorization id

/-- A write of the log has succeeded. -/
def committed (log : List (Prog.Call Stmt Answer Thrown)) : Bool :=
  log.any fun c => isWrite c.query && c.answer.isOk

/-- What a handler that fails behind its first write leaves in the database. -/
def LeftBehind (db db' : Db) : MultiRequest → Prop
  | .register _ body => ∃ email user, nonEmptyString (body.field? "email") = some email ∧
    user.email = jsTrim email ∧ db' = { db with users := db.users ++ [user] }
  | .login .. => False
  | .refresh _ body => ∃ token, textOrNull (body.field? "refresh_token") = some token ∧
    db' = { db with refreshTokens := db.refreshTokens.filter fun r => ¬ r.token = token }
  | .create .. => ∃ c : CommunityRow, c.memberCount = 1 ∧
    db' = { db with communities := db.communities ++ [c] }
  | .apply _ _ id => ∃ m : MemberRow, id = .uuid m.communityId ∧ m.role = "member" ∧
    db' = { db with communityMembers := db.communityMembers ++ [m] }

/-- On 500 the server is as it was if no write of `log` had succeeded, and otherwise holds what the
handler leaves behind. -/
def Leaves (r : MultiRequest) (db : Db) (cache : Cache) (out : Response × Db × Cache)
    (log : List (Prog.Call Stmt Answer Thrown)) : Prop :=
  out.1.status = 500 →
    if committed log then LeftBehind db out.2.1 r ∧ out.2.1 ≠ db else out.2 = (db, cache)

section
variable {svc : Services} {db : Db} {cache : Cache} {x : ℕ → Tick}

theorem leaves_done {r : MultiRequest} {db₀ : Db} {cache₀ : Cache} {resp : Response}
    {log : List (Prog.Call Stmt Answer Thrown)} (h : resp.status ≠ 500) :
    Leaves r db₀ cache₀ ((Prog.done resp : Handler).run (exec svc) x db cache) log :=
  fun h' => absurd h' h

theorem leaves_pure {r : MultiRequest} {db₀ : Db} {cache₀ : Cache} {resp : Response}
    {log : List (Prog.Call Stmt Answer Thrown)} (h : resp.status ≠ 500) :
    Leaves r db₀ cache₀ ((catch500 (pure resp)).run (exec svc) x db cache) log :=
  fun h' => absurd h' h

theorem register_leaves (svc : Services) (env : NodeEnv) (body : Json) (x : ℕ → Tick) (db : Db)
    (cache : Cache) : Leaves (.register env body) db cache
      ((postAuthRegister svc env body).run (exec svc) x db cache)
      ((postAuthRegister svc env body).trace (exec svc) x db cache) := by
  unfold postAuthRegister
  cases hemail : nonEmptyString (body.field? "email") with
  | none => exact leaves_done (by simp [failure])
  | some email =>
    cases hpassword : nonEmptyString (body.field? "password") with
    | none => exact leaves_done (by simp [failure])
    | some password =>
      dsimp only
      split
      · exact leaves_done (by simp [failure])
      · refine catch500_coerced (P := fun p => Leaves (.register env body) db cache (p.run (exec svc) x db cache)
          (p.trace (exec svc) x db cache)) (fun _ => rfl) fun name _ => ?_
        refine catch500_run (P := Leaves (.register env body) db cache) (fun rows db₁ hrows => ?_)
          fun e _ _ => rfl
        obtain ⟨rfl, rfl⟩ | ⟨user, rfl, hu, -, -, rfl⟩ := insertUser_ok hrows
        · exact leaves_pure (by simp [failure])
        · dsimp only
          rw [createTokens_bind]
          refine catch500_run (P := fun out log => Leaves (.register env body) db cache out (_ :: log))
            (fun _ db₂ _ => leaves_pure (by simp)) fun e _ _ => ?_
          exact ⟨⟨email, user, hemail, hu, rfl⟩, fun h => by simpa using congrArg Db.users h⟩

theorem login_leaves (svc : Services) (env : NodeEnv) (body : Json) (x : ℕ → Tick) (db : Db)
    (cache : Cache) : Leaves (.login env body) db cache
      ((postAuthLogin svc env body).run (exec svc) x db cache)
      ((postAuthLogin svc env body).trace (exec svc) x db cache) := by
  unfold postAuthLogin
  split
  swap
  · exact leaves_done (by simp [failure])
  split
  · exact leaves_done (by simp [failure])
  split
  swap
  · -- `email.trim` throws before the first statement
    exact fun _ => rfl
  refine catch500_run (P := Leaves (.login env body) db cache) (fun rows db₁ hrows => ?_) fun e _ _ => rfl
  obtain rfl : db = db₁ := (Prod.mk.inj (Except.ok.inj hrows)).2
  split
  · exact leaves_pure (by simp [failure])
  split
  · exact leaves_pure (by simp [failure])
  split
  swap
  · exact fun _ => rfl
  split
  · exact leaves_pure (by simp [failure])
  rw [createTokens_bind]
  exact catch500_run (P := fun out log => Leaves (.login env body) db cache out (_ :: log))
    (fun _ db₂ _ => leaves_pure (by simp)) fun e _ _ => rfl

theorem refresh_leaves (svc : Services) (env : NodeEnv) (body : Json) (x : ℕ → Tick) (db : Db)
    (cache : Cache) : Leaves (.refresh env body) db cache
      ((postAuthRefresh svc env body).run (exec svc) x db cache)
      ((postAuthRefresh svc env body).trace (exec svc) x db cache) := by
  unfold postAuthRefresh
  cases htoken : textOrNull (body.field? "refresh_token") with
  | none => exact leaves_done (by simp [failure])
  | some token =>
    refine catch500_run (P := Leaves (.refresh env body) db cache) (fun rows db₁ hrows => ?_) fun e _ _ => rfl
    obtain ⟨hfound, rfl⟩ : selectRefreshToken (x 0) db token = rows ∧ db = db₁ :=
      Prod.mk.inj (Except.ok.inj hrows)
    cases rows with
    | nil => exact leaves_pure (by simp [failure])
    | cons userId rest =>
      refine catch500_run (P := fun out log => Leaves (.refresh env body) db cache out (_ :: log))
        (fun users db₂ husers => ?_) fun e _ _ => rfl
      obtain rfl : db = db₂ := (Prod.mk.inj (Except.ok.inj husers)).2
      cases users with
      | nil => exact leaves_pure (by simp [failure])
      | cons user rest' =>
        refine catch500_run (P := fun out log => Leaves (.refresh env body) db cache out (_ :: _ :: log))
          (fun n db₃ hdelete => ?_) fun e _ _ => rfl
        obtain rfl : (deleteRefreshToken db token).2 = db₃ :=
          (Prod.mk.inj (Except.ok.inj hdelete)).2
        refine catch500_run
          (P := fun out log => Leaves (.refresh env body) db cache out (_ :: _ :: _ :: log))
          (fun _ db₄ _ => leaves_pure (by simp)) fun e _ _ => ?_
        refine ⟨⟨token, htoken, rfl⟩, fun h => ?_⟩
        -- the row that the lookup found is gone
        obtain ⟨row, hrow, htok⟩ : ∃ row ∈ db.refreshTokens, row.token = token := by
          have hmem : userId ∈ selectRefreshToken (x 0) db token := by simp [hfound]
          obtain ⟨row, hrow, -⟩ := List.mem_map.mp hmem
          simp only [List.mem_filter, decide_eq_true_eq] at hrow
          exact ⟨row, hrow.1, hrow.2.1⟩
        have hgone : row ∈ (deleteRefreshToken db token).2.refreshTokens :=
          (congrArg Db.refreshTokens h).symm ▸ hrow
        simp [deleteRefreshToken, htok] at hgone

theorem create_leaves (svc : Services) (env : NodeEnv) (authorization : Option String) (body : Json)
    (x : ℕ → Tick) (db : Db) (cache : Cache) : Leaves (.create env authorization body) db cache
      ((postCommunities svc env authorization body).run (exec svc) x db cache)
      ((postCommunities svc env authorization body).trace (exec svc) x db cache) := by
  refine authMiddleware_induction (P := fun p => Leaves (.create env authorization body) db cache
    (p.run (exec svc) x db cache) (p.trace (exec svc) x db cache)) svc env authorization
    (fun r _ => rfl) fun user => ?_
  cases nonEmptyString (body.field? "name") with
  | none => exact leaves_done (by simp [failure])
  | some name =>
    refine catch500_run (P := Leaves (.create env authorization body) db cache) (fun c db₁ hc => ?_)
      fun e _ _ => rfl
    obtain ⟨-, -, hcount, -, -, rfl⟩ := insertCommunity_ok hc
    refine catch500_run (P := fun out log => Leaves (.create env authorization body) db cache out (_ :: log))
      (fun _ db₂ _ => leaves_pure (by simp)) fun e _ _ => ?_
    exact ⟨⟨c, hcount, rfl⟩, fun h => by simpa using congrArg Db.communities h⟩

theorem apply_leaves (svc : Services) (env : NodeEnv) (authorization : Option String) (id : IdParam)
    (x : ℕ → Tick) (db : Db) (cache : Cache) : Leaves (.apply env authorization id) db cache
      ((postCommunitiesApply svc env authorization id).run (exec svc) x db cache)
      ((postCommunitiesApply svc env authorization id).trace (exec svc) x db cache) := by
  refine authMiddleware_induction (P := fun p => Leaves (.apply env authorization id) db cache
    (p.run (exec svc) x db cache) (p.trace (exec svc) x db cache)) svc env authorization
    (fun r _ => rfl) fun user => ?_
  refine catch500_run (P := Leaves (.apply env authorization id) db cache) (fun ids db₁ hids => ?_)
    fun e _ _ => rfl
  obtain ⟨rfl, rfl⟩ | ⟨m, hlen, rfl, -, hrole, -, rfl⟩ := insertMemberOnConflict_ok hids
  · exact leaves_pure (by simp)
  · dsimp only
    rw [if_pos hlen]
    refine catch500_run (P := fun out log => Leaves (.apply _ _ _) db cache out (_ :: log))
      (fun _ db₂ _ => leaves_pure (by simp)) fun e _ _ => ?_
    exact ⟨⟨m, rfl, hrole, rfl⟩, fun h => by simpa using congrArg Db.communityMembers h⟩

theorem handler_leaves (svc : Services) (r : MultiRequest) (x : ℕ → Tick) (db : Db) (cache : Cache) :
    Leaves r db cache ((r.handler svc).run (exec svc) x db cache)
      ((r.handler svc).trace (exec svc) x db cache) := by
  cases r with
  | register env body => exact register_leaves svc env body x db cache
  | login env body => exact login_leaves svc env body x db cache
  | refresh env body => exact refresh_leaves svc env body x db cache
  | create env authorization body => exact create_leaves svc env authorization body x db cache
  | apply env authorization id => exact apply_leaves svc env authorization id x db cache

end

/-- **What a 500 leaves behind**: if no write had succeeded before the failure the database is as it was,
and the same request has the outcome it would have had; otherwise the database is changed, and holds those
writes. -/
theorem aborted_leaves (svc : Services) (r : MultiRequest) (x : ℕ → Tick) (db : Db) (cache : Cache)
    (h : ((r.handler svc).run (exec svc) x db cache).1.status = 500) :
    let out := (r.handler svc).run (exec svc) x db cache
    if committed ((r.handler svc).trace (exec svc) x db cache) then
      LeftBehind db out.2.1 r ∧ out.2.1 ≠ db
    else out.2.1 = db ∧ ∀ y, (r.handler svc).run (exec svc) y out.2.1 out.2.2 =
      (r.handler svc).run (exec svc) y db cache := by
  intro out
  have hleaves := handler_leaves svc r x db cache h
  split_ifs at hleaves ⊢
  · exact hleaves
  · have hsame : out.2 = (db, cache) := hleaves
    rw [hsame]
    exact ⟨rfl, fun y => rfl⟩

/-! ### A registration without tokens -/

/-- A registration whose second INSERT fails. -/
def registerAna : MultiRequest :=
  .register ⟨5, "t1", 0⟩ (.obj [("email", .str "ana@x.org"), ("password", .str "correct horse")])

def secondFails : ℕ → Tick
  | 1 => { fault := some "connection lost" }
  | n => { uuid := n + 10 }

theorem aborted_leaves_registerAna :
    let out := (registerAna.handler plainServices).run (exec plainServices) secondFails {} []
    LeftBehind {} out.2.1 registerAna ∧ out.2.1 ≠ {} := by
  have h := aborted_leaves plainServices registerAna secondFails {} [] (by decide +kernel)
  rwa [if_pos (by decide +kernel)] at h

/-- **A 500 can leave a user without tokens**: the account is there. -/
theorem register_keeps_user :
    ¬ ∀ (svc : Services) (r : MultiRequest) (x : ℕ → Tick) (db : Db) (cache : Cache),
      ((r.handler svc).run (exec svc) x db cache).1.status = 500 →
      let db' := ((r.handler svc).run (exec svc) x db cache).2.1
      db'.users = db.users ∧ db'.refreshTokens = db.refreshTokens ∧
        db'.communities = db.communities ∧ db'.communityMembers = db.communityMembers := by
  intro hclaim
  have hsame := (hclaim plainServices registerAna secondFails {} [] (by decide +kernel)).1
  have hone : ((registerAna.handler plainServices).run (exec plainServices) secondFails {} []).2.1.users.length
      = 1 := by decide +kernel
  rw [hsame] at hone
  cases hone

end Locus.Server
