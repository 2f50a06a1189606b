import Locus.Server.Json

/-!
# The PostgreSQL schema

The tables of `db/init.sql` that the modelled routes read or write, as lists of rows, and the errors a
statement can raise. A UUID is a number, a time is in milliseconds.
-/

namespace Locus.Server

abbrev Uuid := ℕ
abbrev Time := ℕ

/-- A row of `users`. -/
structure UserRow where
  id : Uuid
  email : String
  name : Option String
  phone : Option String := none
  bio : Option String := none
  avatarUrl : Option String := none
  passwordHash : Option String
  createdAt : Time
  updatedAt : Time
deriving DecidableEq

/-- A row of `refresh_tokens`. -/
structure RefreshTokenRow where
  id : Uuid
  userId : Uuid
  token : String
  expiresAt : Time
  createdAt : Time
deriving DecidableEq

/-- A row of `communities`. -/
structure CommunityRow where
  id : Uuid
  name : String
  description : Option String
  location : Option Json
  ownerId : Uuid
  memberCount : ℤ
  createdAt : Time

/-- A row of `community_members`. -/
structure MemberRow where
  id : Uuid
  communityId : Uuid
  userId : Uuid
  role : String
  joinedAt : Time
deriving DecidableEq

/-- A row of `properties`; `price` as the text of its DECIMAL(10,2). -/
structure PropertyRow where
  id : Uuid
  ownerId : Uuid
  title : String
  type : Option String
  address : Option String
  price : Option String
  description : Option String
  location : Option Json
  photos : Json
  status : String
  createdAt : Time

/-- A row of `votes`. -/
structure VoteRow where
  id : Uuid
  communityId : Uuid
  title : String
  description : Option String
  status : String
  createdBy : Uuid
  createdAt : Time
  closesAt : Option Time
deriving DecidableEq

/-- A row of `vote_casts`. -/
structure VoteCastRow where
  id : Uuid
  voteId : Uuid
  userId : Uuid
  choice : Option String
  createdAt : Time
deriving DecidableEq

/-- A row of `notifications`. -/
structure NotificationRow where
  id : Uuid
  userId : Uuid
  title : Option String
  body : Option String
  read : Bool
  createdAt : Time
deriving DecidableEq

structure Db where
  users : List UserRow := []
  refreshTokens : List RefreshTokenRow := []
  communities : List CommunityRow := []
  communityMembers : List MemberRow := []
  properties : List PropertyRow := []
  votes : List VoteRow := []
  voteCasts : List VoteCastRow := []
  notifications : List NotificationRow := []

/-- The errors PostgreSQL raises; `other` is every failure that is not about the data the modelled
checks look at (a lost connection, a time-out, a full disk, text it refuses to encode). -/
inductive PgError
  | uniqueViolation (constraint : String)
  | foreignKeyViolation (table constraint : String)
  | valueTooLong (n : ℕ)
  | invalidUuid (text : String)
  | float8 (message : String)
  | invalidBigint
  | invalidNumeric (text : String)
  | invalidTimestamp (text : String)
  | integerOutOfRange
  | unsupportedUnicode
  | other (message : String)

/-- `err.message`. -/
def PgError.message : PgError → String
  | uniqueViolation c => "duplicate key value violates unique constraint \"" ++ c ++ "\""
  | foreignKeyViolation t c =>
    "insert or update on table \"" ++ t ++ "\" violates foreign key constraint \"" ++ c ++ "\""
  | valueTooLong n => "value too long for type character varying(" ++ toString n ++ ")"
  | invalidUuid text => "invalid input syntax for type uuid: \"" ++ text ++ "\""
  | float8 message => message
  | invalidBigint => "invalid value for type bigint"
  | invalidNumeric text => "invalid input syntax for type numeric: \"" ++ text ++ "\""
  | invalidTimestamp text => "invalid input syntax for type timestamp: \"" ++ text ++ "\""
  | integerOutOfRange => "integer out of range"
  | unsupportedUnicode => "unsupported Unicode escape sequence"
  | other message => message

/-- The statement was refused by a constraint that `db/init.sql` declares. -/
def PgError.ofSchema : PgError → Bool
  | uniqueViolation _ => true
  | foreignKeyViolation _ _ => true
  | valueTooLong _ => true
  | _ => false

/-- What a `catch (err)` of a handler can catch: an error of a statement, or one that JavaScript threw. -/
inductive Thrown
  | pg (e : PgError)
  | js (message : String)

def Thrown.message : Thrown → String
  | pg e => e.message
  | js message => message

/-- A value for a `UUID` parameter: one that PostgreSQL reads, or the text of a path segment it does
not. -/
inductive IdParam
  | uuid (u : Uuid)
  | malformed (text : String)
deriving DecidableEq

/-- `VARCHAR(n)` holds at most `n` characters. -/
def fits (n : ℕ) (s : String) : Bool := s.length ≤ n

/-- What a `VARCHAR(n)` column stores of a text: blanks past its `n` characters are dropped, other text
there is refused. -/
def varchar (n : ℕ) (s : String) : Except PgError String :=
  if fits n s then .ok s
  else if (s.toList.drop n).all (· = ' ') then .ok (String.ofList (s.toList.take n))
  else .error (.valueTooLong n)

/-- `NULL` fits every type. -/
def fitsOpt (n : ℕ) : Option String → Bool
  | none => true
  | some s => fits n s

end Locus.Server
