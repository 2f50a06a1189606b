import Locus.Server.Accounts

/-!
# What a registration keeps of the form

`RegisterScreen` collects `first_name`, `last_name`, `phone` and `housing_reason`, and `authStore.register`
posts them under these names. `POST /auth/register` reads `email`, `password` and a single `name`, which the
app never sends, and `users` has no column for a reason. The profile is rebuilt from the row: the user that
the registration answers, and the one that `GET /auth/me` answers as long as no other route changes the row,
never reports what was entered (`registration_forgets`).
-/

namespace Locus.App

open Lib Server

/-! ### The form -/

/-- The input of `authStore.register`. -/
structure RegisterInput where
  email : String
  password : String
  firstName : String
  lastName : String
  phone : Option String := none
  city : Option String := none
  state : Option String := none
  housingReason : Option String := none
  professionalTitle : Option String := none
  backgroundCheckConsent : Bool
deriving DecidableEq

/-- The body of `api.post("/auth/register", input)`: `JSON.stringify` leaves out what is undefined. -/
def registerBody (input : RegisterInput) : Json :=
  .obj ([("email", .str input.email), ("password", .str input.password),
    ("first_name", .str input.firstName), ("last_name", .str input.lastName)] ++
    optional "phone" input.phone ++ optional "city" input.city ++ optional "state" input.state ++
    optional "housing_reason" input.housingReason ++
    optional "professional_title" input.professionalTitle ++
    [("background_check_consent", .bool input.backgroundCheckConsent)])
where
  optional (key : String) (v : Option String) : List (String × Json) :=
    v.toList.map fun text => (key, .str text)

/-- The values of `HOUSING_REASONS`. -/
def housingReasons : List String :=
  ["job_loss", "loss_of_loved_one", "high_mortgage_rates", "divorce", "exploring"]

/-- `/^\+?[1-9]\d{9,14}$/` -/
def phonePattern (text : String) : Bool :=
  let digits := match text.toList with
    | '+' :: rest => rest
    | all => all
  match digits with
  | [] => false
  | d :: rest => ('1' ≤ d && d ≤ '9') && rest.all Char.isDigit && 9 ≤ rest.length && rest.length ≤ 14

/-- At least 2 characters that are no white space, and none around them. -/
def enteredName (text : String) : Bool :=
  2 ≤ (text.toList.filter fun c => !jsSpace c).length && jsTrim text = text

/-- What the form admits and hands on; any email and any password of at least 8 characters will do here. -/
structure Entered (input : RegisterInput) : Prop where
  firstName : enteredName input.firstName = true
  lastName : enteredName input.lastName = true
  phone : ∀ text, input.phone = some text → text = "" ∨ phonePattern text = true
  housingReason : ∃ reason ∈ housingReasons, input.housingReason = some reason
  email : input.email ≠ ""
  password : 8 ≤ jsLength input.password

/-- The profile shows what was entered; a phone that was left out or empty is null. -/
def Reports (input : RegisterInput) (user : Profile) : Prop :=
  user.firstName = input.firstName ∧ user.lastName = input.lastName ∧
    user.phone = input.phone.filter (· ≠ "") ∧ some user.housingReason = input.housingReason

instance (input : RegisterInput) (user : Profile) : Decidable (Reports input user) :=
  inferInstanceAs (Decidable (_ ∧ _))

/-! ### What the server keeps -/

theorem lookup_optional (key key' : String) (v : Option String) (rest : List (String × Json))
    (h : (key' == key) = false) :
    (registerBody.optional key v ++ rest).lookup key' = rest.lookup key' := by
  cases v with
  | none => rfl
  | some text =>
    change ((key, Json.str text) :: rest).lookup key' = _
    rw [List.lookup_cons, h]

theorem registerBody_fields (input : RegisterInput) :
    (registerBody input).field? "email" = some (.str input.email) ∧
    (registerBody input).field? "password" = some (.str input.password) ∧
    (registerBody input).field? "name" = none := by
  refine ⟨rfl, rfl, ?_⟩
  change ((registerBody.optional "phone" input.phone ++ _ ++ _ ++ _ ++ _ ++ _).lookup "name") = none
  simp only [List.append_assoc]
  rw [lookup_optional _ _ _ _ (by decide), lookup_optional _ _ _ _ (by decide),
    lookup_optional _ _ _ _ (by decide), lookup_optional _ _ _ _ (by decide),
    lookup_optional _ _ _ _ (by decide)]
  rfl

def Nameless (id : Uuid) (db : Db) : Prop :=
  (∃ row ∈ db.users, row.id = id) ∧ ∀ row ∈ db.users, row.id = id → row.name = none

theorem lastName_of_nameless {row : UserRow} (h : row.name = none) :
    (userRowToProfile row).lastName = "" := by
  have hempty : String.intercalate " " (splitWords (jsTrim "")).tail = "" := by decide +kernel
  rw [userRowToProfile, h]
  exact hempty

theorem not_reports {input : RegisterInput} (h : Entered input) {row : UserRow} (hrow : row.name = none) :
    ¬ Reports input (userRowToProfile row) := by
  rintro ⟨-, hlast, -⟩
  have hentered := h.lastName
  rw [← hlast, lastName_of_nameless hrow] at hentered
  exact absurd hentered (by decide)

variable {svc : Services} {s : ServerState} {env : NodeEnv} {x : ℕ → Tick}

theorem register_nameless {input : RegisterInput} (h : Entered input) {user : Profile}
    {accessToken refreshToken : String}
    (hanswer : (serve svc s (.postAuthRegister (registerBody input)) env x).1.body =
      .session user accessToken refreshToken) :
    (∃ row : UserRow, row.name = none ∧ user = userRowToProfile row) ∧
      Nameless user.id (serve svc s (.postAuthRegister (registerBody input)) env x).2.db := by
  obtain ⟨hemail, hpassword, hname⟩ := registerBody_fields input
  have hrun : ((postAuthRegister svc env (registerBody input)).run (exec svc) x s.db s.cache).1.body =
      .session user accessToken refreshToken →
      (∃ row : UserRow, row.name = none ∧ user = userRowToProfile row) ∧
      Nameless user.id ((postAuthRegister svc env (registerBody input)).run (exec svc) x s.db s.cache).2.1 := by
    rw [postAuthRegister_body hemail hpassword h.email h.password, hname, trimmedName_none, coerced_some]
    refine catch500_run (P := fun out _ => out.1.body = .session user accessToken refreshToken →
      (∃ row : UserRow, row.name = none ∧ user = userRowToProfile row) ∧ Nameless user.id out.2.1)
      (fun rows db' hrows => ?_) fun e _ hbody => by cases hbody
    rw [execOk, insertUser] at hrows
    split_ifs at hrows with _ _ hid
    · cases hrows
      intro hbody
      cases hbody
    · cases hrows
      rw [registerRest, createTokens_bind]
      refine catch500_run (P := fun out _ => out.1.body = .session user accessToken refreshToken →
        (∃ row : UserRow, row.name = none ∧ user = userRowToProfile row) ∧ Nameless user.id out.2.1)
        (fun a db' hinsert hbody => ?_) fun e _ hbody => by cases hbody
      obtain ⟨tokens, rfl⟩ := execOk_frame hinsert
      cases hbody
      refine ⟨⟨_, rfl, rfl⟩, ⟨_, List.mem_append_right _ (List.mem_singleton_self _), rfl⟩, ?_⟩
      intro row hrow hrowId
      rcases List.mem_append.mp hrow with hrow | hrow
      · exact absurd (List.any_eq_true.mpr ⟨row, hrow, decide_eq_true hrowId⟩) hid
      · rw [List.mem_singleton.mp hrow]
        rfl
  exact hrun hanswer

theorem nameless_serve {id : Uuid} {r : ApiRequest} (h : Nameless id s.db) :
    Nameless id (serve svc s r env x).2.db := by
  refine Prog.Sends.run (I := Nameless id) (handler_sends svc env r) (fun tick db q hq hdb => ?_) h
  obtain ⟨⟨row₀, hrow₀, hid₀⟩, hall⟩ := hdb
  obtain husers | ⟨row', husers, -, hids, -⟩ | ⟨id', password, -, -, husers⟩ := exec_users tick db hq
  · exact ⟨⟨row₀, husers ▸ hrow₀, hid₀⟩, husers ▸ hall⟩
  · refine ⟨⟨row₀, husers ▸ List.mem_append_left _ hrow₀, hid₀⟩, fun row hrow hrowId => ?_⟩
    rcases List.mem_append.mp (husers ▸ hrow) with hrow | hrow
    · exact hall row hrow hrowId
    · -- a new row has an id of its own
      rw [List.mem_singleton.mp hrow] at hrowId
      exact absurd (hid₀.trans hrowId.symm) (hids row₀ hrow₀)
  · have hkeeps : ∀ u : UserRow, ∀ out : UserRow,
        (if u.id = id' then { u with passwordHash := some (svc.hash env.salt password),
                                     updatedAt := tick.now } else u) = out →
        out.id = u.id ∧ out.name = u.name := by
      rintro u _ rfl
      split <;> exact ⟨rfl, rfl⟩
    refine ⟨⟨_, husers ▸ List.mem_map_of_mem hrow₀, (hkeeps row₀ _ rfl).1.trans hid₀⟩,
      fun row hrow hrowId => ?_⟩
    rw [husers] at hrow
    obtain ⟨u, hu, hout⟩ := List.mem_map.mp hrow
    obtain ⟨hid, hname⟩ := hkeeps u row hout
    rw [hname]
    exact hall u hu (hid ▸ hrowId)

theorem getAuthMe_profile {authorization : Option String} {user : Profile}
    (hanswer : (serve svc s (.getAuthMe authorization) env x).1.body = .profile user) :
    ∃ row ∈ s.db.users, user = userRowToProfile row := by
  revert hanswer
  refine authMiddleware_cases (P := fun p => (p.run (exec svc) x s.db s.cache).1.body = .profile user →
    ∃ row ∈ s.db.users, user = userRowToProfile row) svc env (fun text hbody => by cases hbody)
    fun reqUser _ => ?_
  refine catch500_run (P := fun out _ => out.1.body = .profile user →
    ∃ row ∈ s.db.users, user = userRowToProfile row) (fun rows db' hrows => ?_) fun e _ hbody => by cases hbody
  cases hrows
  cases hfound : selectUser s.db reqUser.id with
  | nil =>
    intro hbody
    cases hbody
  | cons row rest =>
    intro hbody
    cases hbody
    have hmem : row ∈ selectUser s.db reqUser.id := hfound ▸ List.mem_cons_self
    exact ⟨row, (List.mem_filter.mp hmem).1, rfl⟩

/-- **A registration never keeps what the user entered**: neither the user that it answers nor the one that
`GET /auth/me` answers later, after any requests, reports it; and for a new email it does answer with a
user. -/
theorem registration_forgets {input : RegisterInput} (h : Entered input) (svc : Services) (s : ServerState)
    (env : NodeEnv) (x : ℕ → Tick) :
    (∀ user accessToken refreshToken,
      (serve svc s (.postAuthRegister (registerBody input)) env x).1.body =
        .session user accessToken refreshToken →
      ¬ Reports input user ∧
      ∀ tr s', (server svc).Run (fun s e => requestsOnly s e)
          (serve svc s (.postAuthRegister (registerBody input)) env x).2 tr s' →
        ∀ authorization env' x' user', (serve svc s' (.getAuthMe authorization) env' x').1.body =
          .profile user' → user'.id = user.id → ¬ Reports input user') ∧
    (Quiet s.db env x → (∀ row ∈ s.db.users, row.email ≠ jsTrim input.email) →
      fits 255 (jsTrim input.email) = true → fits 255 (svc.hash env.salt input.password) = true →
      (serve svc s (.postAuthRegister (registerBody input)) env x).1.status = 201) := by
  refine ⟨fun user accessToken refreshToken hanswer => ?_, fun hquiet hnew hfits hhash => ?_⟩
  · obtain ⟨⟨row, hname, rfl⟩, hnameless⟩ := register_nameless h hanswer
    refine ⟨not_reports h hname, fun tr s' hrun authorization env' x' user' hme hid => ?_⟩
    have hlater : Nameless row.id s'.db := by
      refine hrun.invariant (fun s : ServerState => Nameless row.id s.db) hnameless fun s e s'' hs hC hstep => ?_
      cases e with
      | request r env x =>
        cases hstep
        exact nameless_serve hs
      | elsewhere users => cases hC
    obtain ⟨row', hrow', rfl⟩ := getAuthMe_profile hme
    exact not_reports h (hlater.2 row' hrow' hid)
  · obtain ⟨hemail, hpassword, hname⟩ := registerBody_fields input
    exact (register_body_succeeds hemail hpassword h.email h.password hfits (by rw [hname]; rfl) rfl hhash
      hquiet hnew).1

def ana : RegisterInput :=
  { email := "ana@x.org", password := "Password1", firstName := "Ana", lastName := "Lopez",
    phone := some "+5215512345678", housingReason := some "divorce", backgroundCheckConsent := true }

theorem ana_entered : Entered ana where
  firstName := by decide +kernel
  lastName := by decide +kernel
  phone text h := by
    cases h
    exact .inr (by decide +kernel)
  housingReason := ⟨"divorce", by decide, rfl⟩
  email := by decide
  password := by decide

theorem registration_forgets_ana :
    (serve plainServices {} (.postAuthRegister (registerBody ana)) ⟨0, "r1", 0⟩ fun _ => { uuid := 1 }).1.status =
      201 :=
  (registration_forgets ana_entered plainServices {} ⟨0, "r1", 0⟩ fun _ => { uuid := 1 }).2
    { fault := fun _ => rfl
      userId := fun _ row h => (nomatch h)
      tokenId := fun _ row h => (nomatch h)
      token := fun row h => (nomatch h) }
    (fun row h => (nomatch h)) (by decide +kernel) (by decide +kernel)

def userOf : Body → Option Profile
  | .session user _ _ => some user
  | .profile user => some user
  | _ => none

/-- Ana Lopez registers, and is shown as `User` without a phone who is exploring; so she is by
`GET /auth/me`. -/
theorem ana_forgotten :
    let out := serve plainServices {} (.postAuthRegister (registerBody ana)) ⟨0, "r1", 0⟩ fun _ => { uuid := 1 }
    let me := serve plainServices out.2 (.getAuthMe (some "Bearer 1.0.ana@x.org")) ⟨1, "r2", 0⟩ fun _ => {}
    Entered ana ∧ out.1.status = 201 ∧ me.1.status = 200 ∧ userOf me.1.body = userOf out.1.body ∧
    (userOf out.1.body).map (fun user => (user.firstName, user.lastName, user.phone, user.housingReason)) =
      some ("User", "", none, "exploring") ∧
    ¬ ∃ user, userOf out.1.body = some user ∧ Reports ana user := by
  refine ⟨ana_entered, by decide +kernel, by decide +kernel, by decide +kernel, by decide +kernel, ?_⟩
  rintro ⟨user, huser, -, hlast, -⟩
  have hanswer : (userOf (serve plainServices {} (.postAuthRegister (registerBody ana)) ⟨0, "r1", 0⟩
      fun _ => { uuid := 1 }).1.body).map (·.lastName) = some "" := by decide +kernel
  rw [huser, Option.map_some, hlast] at hanswer
  exact absurd hanswer (by decide)

end Locus.App
