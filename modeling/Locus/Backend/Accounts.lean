import Locus.Backend.AuthService

/-!
# Accounts of the Go backend

What `AuthHandler` asks of the repository is said once (`AuthRequest.Asks`): lookups, the creation of a user with a
hash of the submitted password, and the update of a user that was found behind his e-mail. Over it, whatever requests
run at once and whatever the repository does when it fails: accounts stay as they were registered and nobody becomes an
admin (`accounts_stay`), and a login succeeds only for somebody who registered (`login_registered`).
-/

namespace Locus.Backend

open Lib AuthService

/-! ### What the handlers ask for -/

section
variable {ID : Type} {pkg : AuthPackages ID} {draws : Draws} {log : List (Prog.Call (UserCall ID) UserCall.Answer String)}

/-- What a request asks of the repository behind the answers that it got. -/
inductive AuthRequest.Asks (pkg : AuthPackages ID) (draws : Draws) :
    AuthRequest ID → List (Prog.Call (UserCall ID) UserCall.Answer String) → UserCall ID → Prop
  | findByEmail (r : AuthRequest ID) (log : List (Prog.Call (UserCall ID) UserCall.Answer String)) (email : String) :
      Asks pkg draws r log (.findByEmail email)
  | findByID (r : AuthRequest ID) (log : List (Prog.Call (UserCall ID) UserCall.Answer String)) (id : ID) :
      Asks pkg draws r log (.findByID id)
  | create {input : RegisterInput} {hash : String}
      (log : List (Prog.Call (UserCall ID) UserCall.Answer String))
      (hhash : pkg.generateFromPassword draws.salt input.password = .ok hash) :
      Asks pkg draws (.register (.ok input)) log (.create (newUser pkg input hash))
  | update {input : LoginInput} {user : User ID}
      (hmatch : pkg.compareHashAndPassword user.passwordHash input.password = true) :
      Asks pkg draws (.login (.ok input)) [⟨.findByEmail input.email, .ok (some user)⟩]
        (.update { user with lastLoginAt := some draws.now })

theorem not_awaits_done {R : Type} {r : R} {q : UserCall ID} (h : (Prog.done r : AuthProg ID R).Awaits q) : False := by
  obtain ⟨k, hk⟩ := h
  cases hk

theorem register_asks {input : RegisterInput} {p : AuthProg ID (Except String (AuthResponse ID))} {q : UserCall ID}
    (h : (AuthService.register pkg draws input).Path log p) (hp : p.Awaits q) :
    AuthRequest.Asks pkg draws (.register (.ok input)) log q := by
  obtain ⟨rfl, rfl⟩ | ⟨existing, log₁, rfl, h₁⟩ := Prog.path_query.mp h
  · obtain ⟨k, hk⟩ := hp
    cases hk
    exact .findByEmail _ _ _
  split at h₁
  · obtain ⟨-, rfl⟩ := Prog.path_done.mp h₁
    exact (not_awaits_done hp).elim
  split at h₁
  · obtain ⟨-, rfl⟩ := Prog.path_done.mp h₁
    exact (not_awaits_done hp).elim
  rename_i hash hhash
  obtain ⟨rfl, rfl⟩ | ⟨stored, log₂, rfl, h₂⟩ := Prog.path_query.mp h₁
  · obtain ⟨k, hk⟩ := hp
    cases hk
    exact .create _ hhash
  split at h₂
  all_goals
    obtain ⟨-, rfl⟩ := Prog.path_done.mp h₂
    exact (not_awaits_done hp).elim

theorem login_cases {input : LoginInput} {p : AuthProg ID (Except String (AuthResponse ID))}
    (h : (AuthService.login pkg draws input).Path log p) :
    (log = [] ∧ p.Awaits (.findByEmail input.email)) ∨
    (∃ err, p = .done (.error err) ∧ contains err "invalid credentials") ∨
    ∃ user, pkg.compareHashAndPassword user.passwordHash input.password = true ∧
      ((log = [⟨.findByEmail input.email, .ok (some user)⟩] ∧
          p.Awaits (.update { user with lastLoginAt := some draws.now })) ∨
        ⟨.findByEmail input.email, .ok (some user)⟩ ∈ log ∧
          p = .done (generateAuthResponse pkg draws { user with lastLoginAt := some draws.now })) := by
  obtain ⟨rfl, rfl⟩ | ⟨found, log₁, rfl, h₁⟩ := Prog.path_query.mp h
  · exact .inl ⟨rfl, _, rfl⟩
  split at h₁
  swap
  · exact .inr (.inl ⟨_, (Prog.path_done.mp h₁).2, by decide⟩)
  rename_i user
  split at h₁
  · exact .inr (.inl ⟨_, (Prog.path_done.mp h₁).2, by decide⟩)
  rename_i hmatch
  refine .inr (.inr ⟨user, by simpa using hmatch, ?_⟩)
  obtain ⟨rfl, rfl⟩ | ⟨updated, log₂, rfl, h₂⟩ := Prog.path_query.mp h₁
  · exact .inl ⟨rfl, _, rfl⟩
  · exact .inr ⟨List.mem_cons_self, (Prog.path_done.mp h₂).2⟩

theorem refresh_done (pkg : AuthPackages ID) (draws : Draws) (refreshToken : Except String String) :
    ∃ answer, AuthHandler.refresh pkg draws refreshToken = .done answer := by
  unfold AuthHandler.refresh
  split
  · exact ⟨_, rfl⟩
  split
  · exact ⟨_, rfl⟩
  split <;> exact ⟨_, rfl⟩

/-- **A handler asks for nothing else.** -/
theorem handler_asks {r : AuthRequest ID} {p : AuthProg ID (AuthAnswer ID)} {q : UserCall ID}
    (h : (r.handler pkg draws).Path log p) (hp : p.Awaits q) : r.Asks pkg draws log q := by
  cases r with
  | register input =>
    cases input with
    | error err =>
      obtain ⟨-, rfl⟩ := Prog.path_done.mp h
      exact (not_awaits_done hp).elim
    | ok input =>
      obtain ⟨p', hpath, rfl⟩ := Prog.map_path h
      exact register_asks hpath (Prog.map_awaits hp)
  | login input =>
    cases input with
    | error err =>
      obtain ⟨-, rfl⟩ := Prog.path_done.mp h
      exact (not_awaits_done hp).elim
    | ok input =>
      obtain ⟨p', hpath, rfl⟩ := Prog.map_path h
      obtain ⟨k, hk⟩ := Prog.map_awaits hp
      obtain ⟨-, k', hk'⟩ | ⟨err, hdone, -⟩ | ⟨user, hmatch, ⟨rfl, k', hk'⟩ | ⟨-, hdone⟩⟩ := login_cases hpath
      · cases hk.symm.trans hk'
        exact .findByEmail _ _ _
      · cases hk.symm.trans hdone
      · cases hk.symm.trans hk'
        exact .update hmatch
      · cases hk.symm.trans hdone
  | me userID =>
    obtain ⟨p', hpath, rfl⟩ := Prog.map_path h
    obtain ⟨k, hk⟩ := Prog.map_awaits hp
    obtain ⟨-, hk'⟩ | ⟨found, log₁, rfl, h₁⟩ := Prog.path_query.mp hpath
    · cases hk.symm.trans hk'
      exact .findByID _ _ _
    · split at h₁
      all_goals cases hk.symm.trans (Prog.path_done.mp h₁).2
  | refresh refreshToken =>
    obtain ⟨answer, hanswer⟩ := refresh_done pkg draws refreshToken
    rw [AuthRequest.handler, hanswer] at h
    obtain ⟨-, rfl⟩ := Prog.path_done.mp h
    exact (not_awaits_done hp).elim
  | logout =>
    obtain ⟨-, rfl⟩ := Prog.path_done.mp h
    exact (not_awaits_done hp).elim
  | forgotPassword email =>
    cases email <;>
      obtain ⟨-, rfl⟩ := Prog.path_done.mp h <;> exact (not_awaits_done hp).elim
  | resetPassword body =>
    cases body with
    | error err =>
      obtain ⟨-, rfl⟩ := Prog.path_done.mp h
      exact (not_awaits_done hp).elim
    | ok body =>
      obtain ⟨p', hpath, rfl⟩ := Prog.map_path h
      obtain ⟨k, hk⟩ := Prog.map_awaits hp
      cases hk.symm.trans (Prog.path_done.mp hpath).2

theorem login_success {input : LoginInput} {response : AuthResponse ID}
    (h : ((AuthRequest.login (.ok input)).handler pkg draws).Path log (.done (.success response))) :
    ∃ user, ⟨.findByEmail input.email, .ok (some user)⟩ ∈ log ∧
      pkg.compareHashAndPassword user.passwordHash input.password = true ∧
      generateAuthResponse pkg draws { user with lastLoginAt := some draws.now } = .ok response := by
  obtain ⟨p, hpath, hdone⟩ := Prog.map_path h
  obtain ⟨result, rfl, hresult⟩ := Prog.map_eq_done hdone.symm
  obtain ⟨-, k, hk⟩ | ⟨err, hend, -⟩ | ⟨user, hmatch, ⟨-, k, hk⟩ | ⟨hmem, hend⟩⟩ := login_cases hpath
  · cases hk
  · cases hend
    dsimp only at hresult
    split at hresult <;> cases hresult
  · cases hk
  · cases hend
    refine ⟨user, hmem, hmatch, ?_⟩
    split at hresult
    · split at hresult <;> cases hresult
    · rename_i authResp hresp
      cases hresult
      exact hresp

end

/-! ### Accounts at two times -/

namespace User

variable {ID : Type} {a b c : User ID}

theorem Same.refl (a : User ID) : a.Same a := rfl

theorem Same.trans (h : a.Same b) (h' : b.Same c) : a.Same c := by
  rw [Same] at *
  rw [h', h]

theorem Same.symm (h : a.Same b) : b.Same a := by
  rw [Same] at *
  rw [h]

theorem same_touch (a : User ID) (at' : Option ℕ) (now : ℕ) : a.Same { a with lastLoginAt := at', updatedAt := now } :=
  rfl

theorem StoredAs.same {user : User ID} (h : user.StoredAs a) (hsame : a.Same b) : user.StoredAs b := by
  rw [StoredAs, Same] at *
  rw [hsame, h]

end User

section
variable {ID : Type}

structure Keyed (rows : List (User ID)) : Prop where
  id : Unique User.id rows
  email : Unique User.email rows

/-- The rows of a later time: every account is still there as it was, and who is new is no admin. -/
structure Later (rows rows' : List (User ID)) : Prop where
  grows : Grows User.Same rows rows'
  role : ∀ row' ∈ rows', (∃ row ∈ rows, row.Same row') ∨ row'.role = "user"

theorem Later.refl (rows : List (User ID)) : Later rows rows :=
  ⟨.refl User.Same.refl rows, fun row hrow => .inl ⟨row, hrow, .refl row⟩⟩

theorem Later.trans {rows rows' rows'' : List (User ID)} (h : Later rows rows') (h' : Later rows' rows'') :
    Later rows rows'' := by
  refine ⟨h.grows.trans User.Same.trans h'.grows, fun row'' hrow'' => ?_⟩
  obtain ⟨row', hrow', hsame'⟩ | hrole := h'.role row'' hrow''
  · obtain ⟨row, hrow, hsame⟩ | hrole := h.role row' hrow'
    · exact .inl ⟨row, hrow, hsame.trans hsame'⟩
    · rw [User.Same] at hsame'
      rw [hsame']
      exact .inr hrole
  · exact .inr hrole

theorem later_create {rows : List (User ID)} (hkeyed : Keyed rows) {row : User ID}
    (hnew : ∀ u ∈ rows, u.id ≠ row.id ∧ u.email ≠ row.email) (hrole : row.role = "user") :
    Keyed (rows ++ [row]) ∧ Later rows (rows ++ [row]) := by
  refine ⟨⟨hkeyed.id.append fun u hu => (hnew u hu).1, hkeyed.email.append fun u hu => (hnew u hu).2⟩,
    .append User.Same.refl rows [row], fun row' hrow' => ?_⟩
  rcases List.mem_append.mp hrow' with hrow' | hrow'
  · exact .inl ⟨row', hrow', .refl row'⟩
  · rw [List.mem_singleton.mp hrow']
    exact .inr hrole

def FoundThere (rows : List (User ID)) (call : Prog.Call (UserCall ID) UserCall.Answer String) : Prop :=
  ∀ email user, call = ⟨.findByEmail email, .ok (some user)⟩ → ∃ row ∈ rows, row.Same user

theorem FoundThere.later {rows rows' : List (User ID)} (h : Later rows rows')
    {call : Prog.Call (UserCall ID) UserCall.Answer String} (hcall : FoundThere rows call) : FoundThere rows' call := by
  intro email user heq
  obtain ⟨row, hrow, hsame⟩ := hcall email user heq
  obtain ⟨row', hrow', hkept⟩ := h.grows.mem hrow
  exact ⟨row', hrow', hkept.symm.trans hsame⟩

variable {σ X : Type} [DecidableEq ID] {repo : UserRepository ID σ X} {users : σ → List (User ID)}
  {pkg : AuthPackages ID}

theorem later_update {rows : List (User ID)} (hkeyed : Keyed rows) {user : User ID}
    (hfound : ∃ row ∈ rows, row.Same user) (now : ℕ) :
    Keyed (rows.map fun row => if row.id = user.id then { user with updatedAt := now } else row) ∧
      Later rows (rows.map fun row => if row.id = user.id then { user with updatedAt := now } else row) := by
  obtain ⟨found, hmem, hsame⟩ := hfound
  have hid : user.id = found.id := by rw [hsame]
  -- the row that is replaced is the one that was found
  have hrow : ∀ row ∈ rows, row.Same (if row.id = user.id then { user with updatedAt := now } else row) := by
    intro row hrow
    split
    · rename_i hkey
      obtain rfl := hkeyed.id.eq_of_key hrow hmem (hkey.trans hid)
      exact hsame.trans (user.same_touch _ _)
    · exact .refl row
  have hgrows : Grows User.Same rows
      (rows.map fun row => if row.id = user.id then { user with updatedAt := now } else row) := .map hrow
  refine ⟨⟨hkeyed.id.grow hgrows (fun h => by rw [h]) (List.length_map ..),
    hkeyed.email.grow hgrows (fun h => by rw [h]) (List.length_map ..)⟩, hgrows, fun row' hrow' => ?_⟩
  obtain ⟨row, hmem', rfl⟩ := List.mem_map.mp hrow'
  exact .inl ⟨row, hmem', hrow row hmem'⟩

/-- **What is asked leaves the accounts.** -/
theorem asks_later (hrepo : repo.Lawful users) {draws : Draws} {r : AuthRequest ID}
    {log : List (Prog.Call (UserCall ID) UserCall.Answer String)} {q : UserCall ID} (hq : r.Asks pkg draws log q)
    {x : X} {s : σ} (hkeyed : Keyed (users s)) (hfound : ∀ call ∈ log, FoundThere (users s) call) :
    Keyed (users (repo x s q).2) ∧ Later (users s) (users (repo x s q).2) := by
  cases hq with
  | findByEmail _ _ email =>
    rw [(hrepo.findByEmail x s email).1]
    exact ⟨hkeyed, .refl _⟩
  | findByID _ _ id =>
    rw [(hrepo.findByID x s id).1]
    exact ⟨hkeyed, .refl _⟩
  | create =>
    rename_i input hash hhash
    obtain ⟨hsame, -⟩ | ⟨row, hstored, hnew, hrows, -⟩ := hrepo.create x s (newUser pkg input hash)
    · rw [hsame]
      exact ⟨hkeyed, .refl _⟩
    · rw [hrows]
      exact later_create hkeyed hnew (by rw [hstored]; rfl)
  | update hmatch =>
    rename_i input user
    obtain ⟨row, hrow, hsame⟩ := hfound _ (List.mem_singleton_self _) _ _ rfl
    obtain hsame' | ⟨now, hrows⟩ := hrepo.update x s { user with lastLoginAt := some draws.now }
    · rw [hsame']
      exact ⟨hkeyed, .refl _⟩
    · rw [hrows]
      exact later_update hkeyed ⟨row, hrow, hsame.trans (user.same_touch _ _)⟩ now

theorem exec_foundThere (hrepo : repo.Lawful users) (x : X) (s : σ) (q : UserCall ID) :
    FoundThere (users (repo x s q).2) ⟨q, (repo x s q).1⟩ := by
  intro email user heq
  obtain ⟨rfl, hanswer⟩ := Prog.Call.mk.inj heq
  obtain ⟨hrow, -⟩ := (hrepo.findByEmail x s email).2 user (eq_of_heq hanswer)
  exact ⟨user, by rw [(hrepo.findByEmail x s email).1]; exact hrow, .refl user⟩

end

/-! ### Who registered -/

section
variable {ι ID σ X : Type} {pkg : AuthPackages ID} {draws : ι → Draws} {req : ι → AuthRequest ID}

/-- The row is that of a user whom a request registered. -/
def RegisteredAs (pkg : AuthPackages ID) (draws : ι → Draws) (req : ι → AuthRequest ID)
    (logs : ι → List (Prog.Call (UserCall ID) UserCall.Answer String)) (row : User ID) : Prop :=
  ∃ j input hash answer, req j = .register (.ok input) ∧
    pkg.generateFromPassword (draws j).salt input.password = .ok hash ∧
    ⟨.create (newUser pkg input hash), answer⟩ ∈ logs j ∧ (newUser pkg input hash).StoredAs row

theorem RegisteredAs.mono {logs logs' : ι → List (Prog.Call (UserCall ID) UserCall.Answer String)}
    (hgrow : ∀ j, logs j <+: logs' j) {row : User ID} (h : RegisteredAs pkg draws req logs row) :
    RegisteredAs pkg draws req logs' row := by
  obtain ⟨j, input, hash, answer, hreq, hhash, hcall, hstored⟩ := h
  exact ⟨j, input, hash, answer, hreq, hhash, (hgrow j).subset hcall, hstored⟩

theorem RegisteredAs.same {logs : ι → List (Prog.Call (UserCall ID) UserCall.Answer String)} {row row' : User ID}
    (h : RegisteredAs pkg draws req logs row) (hsame : row.Same row') : RegisteredAs pkg draws req logs row' := by
  obtain ⟨j, input, hash, answer, hreq, hhash, hcall, hstored⟩ := h
  exact ⟨j, input, hash, answer, hreq, hhash, hcall, hstored.same hsame⟩

variable [DecidableEq ID] {repo : UserRepository ID σ X} {users : σ → List (User ID)}

/-- A lookup by e-mail found a user with it, of whom `P` holds. -/
def FindsOnly (P : User ID → Prop) (call : Prog.Call (UserCall ID) UserCall.Answer String) : Prop :=
  ∀ email user, call = ⟨.findByEmail email, .ok (some user)⟩ → user.email = email ∧ P user

theorem exec_findsOnly (hrepo : repo.Lawful users) {P : User ID → Prop} {s : σ} (hrows : ∀ row ∈ users s, P row) (x : X)
    (q : UserCall ID) : FindsOnly P ⟨q, (repo x s q).1⟩ := by
  intro email user heq
  obtain ⟨rfl, hanswer⟩ := Prog.Call.mk.inj heq
  obtain ⟨hrow, hemail⟩ := (hrepo.findByEmail x s email).2 user (eq_of_heq hanswer)
  exact ⟨hemail, hrows user hrow⟩

/-- Every row is written for a registration, by it or by a login that found it. -/
theorem exec_registered (hrepo : repo.Lawful users)
    {logs logs' : ι → List (Prog.Call (UserCall ID) UserCall.Answer String)} {i : ι} {x : X} {s : σ} {q : UserCall ID}
    (hq : (req i).Asks pkg (draws i) (logs i) q)
    (hfinds : ∀ call ∈ logs i, FindsOnly (RegisteredAs pkg draws req logs) call)
    (hrows : ∀ row ∈ users s, RegisteredAs pkg draws req logs row) (hgrow : ∀ j, logs j <+: logs' j)
    (hcall : ⟨q, (repo x s q).1⟩ ∈ logs' i) :
    ∀ row ∈ users (repo x s q).2, RegisteredAs pkg draws req logs' row := by
  have hold : ∀ row ∈ users s, RegisteredAs pkg draws req logs' row := fun row hrow => (hrows row hrow).mono hgrow
  generalize hr : req i = r at hq
  generalize hlog : logs i = log at hq hfinds
  cases hq with
  | findByEmail _ _ email =>
    rw [(hrepo.findByEmail x s email).1]
    exact hold
  | findByID _ _ id =>
    rw [(hrepo.findByID x s id).1]
    exact hold
  | create =>
    rename_i input hash hhash
    obtain ⟨hsame, -⟩ | ⟨new, hstored, -, hadded, -⟩ := hrepo.create x s (newUser pkg input hash)
    · rw [hsame]
      exact hold
    · rw [hadded]
      intro row hrow
      rcases List.mem_append.mp hrow with hrow | hrow
      · exact hold row hrow
      · rw [List.mem_singleton.mp hrow]
        exact ⟨i, input, hash, _, hr, hhash, hcall, hstored⟩
  | update hmatch =>
    rename_i input user
    obtain ⟨-, huser⟩ := hfinds _ (List.mem_singleton_self _) _ _ rfl
    obtain hsame | ⟨now, hwritten⟩ := hrepo.update x s { user with lastLoginAt := some (draws i).now }
    · rw [hsame]
      exact hold
    · rw [hwritten]
      intro row hrow
      obtain ⟨row, hmem, rfl⟩ := List.mem_map.mp hrow
      split
      · exact (huser.mono hgrow).same (user.same_touch _ _)
      · exact hold row hmem

end

/-! ### Runs -/

section
variable {ι ID σ X : Type} [DecidableEq ι] [DecidableEq ID] {repo : UserRepository ID σ X}
  {users : σ → List (User ID)} {pkg : AuthPackages ID} {draws : ι → Draws} {req : ι → AuthRequest ID}
  {Init : σ → Prop} {C : AuthServer ι ID σ → PoolEvent ι X → Prop} {s s' : AuthServer ι ID σ}
  {tr : List (PoolEvent ι X)}

/-- **Accounts stay as they were registered**, whatever requests run at once: ids and e-mails tell users apart, no user
is lost, nothing of a user changes but the times of his last login and update, and who is new is no admin. -/
theorem accounts_stay (hrepo : repo.Lawful users) (hinit : ∀ s, Init s → Keyed (users s))
    (h : (authServer pkg repo draws req Init).Reachable C s) (hrun : (authServer pkg repo draws req Init).Run C s tr s') :
    Keyed (users s'.db) ∧ Later (users s.db) (users s'.db) := by
  have hkeep : ∀ i x s q k log, ((req i).handler pkg (draws i)).Path log (.query q k) →
      (∀ call ∈ log, FoundThere (users s) call) → Keyed (users s) →
      Keyed (users (repo x s q).2) ∧ Later (users s) (users (repo x s q).2) := fun i x s q k log hpath hlog hkeyed =>
    asks_later hrepo (handler_asks hpath ⟨k, rfl⟩) hkeyed hlog
  obtain ⟨hkeyed, hfound⟩ := Pool.answered_along (J := fun s => Keyed (users s)) (T := fun s => FoundThere (users s))
    (fun s _ h₀ => hinit s h₀) (fun x s q _ => exec_foundThere hrepo x s q)
    (fun i x s q k log hpath hlog hkeyed => by
      obtain ⟨hkeyed', hlater⟩ := hkeep i x s q k log hpath hlog hkeyed
      exact ⟨hkeyed', fun call hcall => hcall.later hlater⟩) h
  obtain ⟨-, ⟨hkeyed', hlater⟩, -⟩ := Pool.answered_along_run (J := fun d => Keyed (users d) ∧ Later (users s.db) (users d))
    (T := fun s => FoundThere (users s)) (fun _ => True) (fun x s q _ => exec_foundThere hrepo x s q)
    (fun i x d q k log hpath hlog hd => by
      obtain ⟨hkeyed', hlater⟩ := hkeep i x d q k log hpath (hlog trivial) hd.1
      exact ⟨⟨hkeyed', hd.2.trans hlater⟩, fun call hcall => hcall.later hlater⟩)
    (Pool.path h) ⟨hkeyed, .refl _⟩ (fun i _ => hfound i) hrun
  exact ⟨hkeyed', hlater⟩

theorem accounts_stay_dea : ∃ rows rows' : List (User ℕ), rows.map (·.lastLoginAt) = [none] ∧
    rows'.map (·.lastLoginAt) = [some 7] ∧ Keyed rows' ∧ Later rows rows' := by
  obtain ⟨s, s', ⟨tr, hs⟩, ⟨tr', hs'⟩, hnone, hsome, -⟩ := dea_logs_in
  exact ⟨s.db, s'.db, hnone, hsome, accounts_stay usersInMemory_lawful
    (by rintro _ rfl; exact ⟨List.nodup_nil, List.nodup_nil⟩) (beforeDea_reachable.trans hs) hs'⟩

/-- **Who logs in has registered**: on a repository that is empty at first, whatever requests run at once, a login is
answered with tokens only for an e-mail that a request registered, with a password that matches the hash of the one
registered; the tokens are those of this user, in the role `user`. -/
theorem login_registered (hrepo : repo.Lawful users) (hempty : ∀ s, Init s → users s = [])
    (h : (authServer pkg repo draws req Init).Reachable C s) {i : ι} {input : LoginInput} {response : AuthResponse ID}
    (hreq : req i = .login (.ok input)) (hi : (s.thread i).result = some (.success response)) :
    ∃ user, user.email = input.email ∧ RegisteredAs pkg draws req s.logs user ∧
      pkg.compareHashAndPassword user.passwordHash input.password = true ∧
      pkg.generateAccessToken (draws i).now user.id "user" = .ok response.accessToken ∧
      response.user = { user with lastLoginAt := some (draws i).now }.toPrivateProfile := by
  obtain ⟨-, hfinds⟩ := Pool.provenance (J := fun logs s => ∀ row ∈ users s, RegisteredAs pkg draws req logs row)
    (T := fun logs => FindsOnly (RegisteredAs pkg draws req logs))
    (fun s _ h₀ row hrow => absurd hrow (by rw [hempty s h₀]; exact List.not_mem_nil))
    (fun hgrow hrows row hrow => (hrows row hrow).mono hgrow)
    (fun hgrow hcall email user heq => ⟨(hcall email user heq).1, (hcall email user heq).2.mono hgrow⟩)
    (fun logs x s q hrows => exec_findsOnly hrepo hrows x q)
    (fun logs logs' i x s q k hpath hfinds hrows hgrow hcall =>
      exec_registered hrepo (handler_asks hpath ⟨k, rfl⟩) hfinds hrows hgrow hcall) h
  obtain ⟨log, hthread⟩ := Thread.result_eq_some.mp hi
  have hpath := (Pool.path h i _ _ hthread).1
  rw [hreq] at hpath
  obtain ⟨user, hmem, hmatch, hresponse⟩ := login_success hpath
  have hlog : ⟨.findByEmail input.email, .ok (some user)⟩ ∈ s.logs i := by
    rw [Pool.logs, hthread]
    exact hmem
  obtain ⟨hemail, hregistered⟩ := hfinds i _ hlog _ _ rfl
  have hrole : user.role = "user" := by
    obtain ⟨j, registration, hash, answer, -, -, -, hstored⟩ := hregistered
    rw [hstored]
    rfl
  refine ⟨user, hemail, hregistered, hmatch, ?_⟩
  unfold generateAuthResponse at hresponse
  split at hresponse
  · cases hresponse
  rename_i accessToken haccess
  split at hresponse
  · cases hresponse
  cases hresponse
  exact ⟨hrole ▸ haccess, rfl⟩

theorem login_registered_dea : ∃ (user : User ℕ) (s : AuthServer Bool ℕ (List (User ℕ))), user.email = "dea@x.org" ∧
    RegisteredAs plainPackages deaDraws deaLogsIn s.logs user := by
  obtain ⟨s, s', ⟨tr, hs⟩, ⟨tr', hs'⟩, -, -, response, hresponse⟩ := dea_logs_in
  obtain ⟨user, hemail, hregistered, -⟩ := login_registered usersInMemory_lawful (by rintro _ rfl; rfl)
    ((beforeDea_reachable.trans hs).trans hs') rfl hresponse
  exact ⟨user, s', hemail, hregistered⟩

end

end Locus.Backend
