import Locus.Server.Schema
import Mathlib.Algebra.Order.Floor.Defs
import Mathlib.Data.Rat.Floor

/-!
# What the server takes from outside its repository

PostgreSQL's `float8`, bcrypt and the JSON web token library are not part of the repository; the model
takes them as the parameter `Services`. Nothing is assumed of them here: a result that relies on their
documented behaviour says so in a hypothesis.
-/

namespace Locus.Server

/-- PostgreSQL's `float8`: reading a text, arithmetic and comparison. An error is its message. -/
structure Float8 where
  V : Type
  cast : String → Except String V
  add : V → V → Except String V
  sub : V → V → Except String V
  mul : V → V → Except String V
  le : V → V → Bool

/-- The claims of an access token: `req.user`. -/
structure AuthUser where
  id : Uuid
  email : String
deriving DecidableEq

structure Services where
  float8 : Float8
  /-- `parseFloat(v)` as JavaScript prints it; `NaN` when there is no number. -/
  parseFloat : Option String → String
  /-- `Number(v)` as JavaScript prints it. -/
  number : Json → String
  /-- The DECIMAL(10,2) that PostgreSQL stores for a number. -/
  decimal : String → Except PgError String
  /-- The TIMESTAMP that PostgreSQL reads from a text. -/
  timestamp : String → Except PgError Time
  /-- `Math.round(Number(price || 0) * 100)` as JavaScript prints it. -/
  cents : Option String → String
  /-- `bcrypt.hash(password, 10)` with a salt. -/
  hash : ℕ → String → String
  /-- `bcrypt.compare(password, hash)` of two strings. -/
  compare : String → String → Bool
  /-- `jwt.sign({ id, email }, JWT_SECRET, { expiresIn })` at a time. -/
  sign : AuthUser → Time → String
  /-- `jwt.verify(token, JWT_SECRET)` at a time; `none` when it throws. -/
  verify : String → Time → Option AuthUser

/-! ### An instance that can be computed -/

/-- The number that a run of digits denotes, read behind `n`. -/
def readDigits (n : ℕ) (digits : List Char) : Option ℕ :=
  digits.foldl (fun n c => n.bind fun n => if c.isDigit then some (10 * n + (c.toNat - 48)) else none)
    (some n)

def readDecimal (text : String) : Option ℚ :=
  let (sign, digits) : ℤ × List Char := match text.toList with
    | '-' :: rest => (-1, rest)
    | all => (1, all)
  let whole := digits.takeWhile (· ≠ '.')
  let fraction := (digits.dropWhile (· ≠ '.')).tail
  if whole = [] then none
  else do
    let n ← readDigits 0 whole
    let m ← readDigits n fraction
    return (sign * m : ℤ) / (10 ^ fraction.length : ℕ)

/-- `float8` without rounding. -/
def exactFloat8 : Float8 where
  V := ℚ
  cast text := match readDecimal text with
    | some x => inRange x
    | none => .error ("invalid input syntax for type double precision: \"" ++ text ++ "\"")
  add x y := inRange (x + y)
  sub x y := inRange (x - y)
  mul x y := inRange (x * y)
  le x y := decide (x ≤ y)
where
  inRange (x : ℚ) : Except String ℚ :=
    if |x| < 2 ^ 1024 then .ok x else .error "value out of range: overflow"

/-- A number as `DECIMAL(10,2)` prints it. -/
def twoDecimals (x : ℚ) : Except PgError String :=
  let cents := ⌊|x| * 100 + 1 / 2⌋.toNat
  let digits := toString (cents / 100) ++ "." ++ toString (cents / 10 % 10) ++ toString (cents % 10)
  if 10 ^ 10 ≤ cents then .error (.other "numeric field overflow")
  else .ok (if x < 0 ∧ cents ≠ 0 then "-" ++ digits else digits)

/-- Stand-ins that do on short decimals, the time `epoch`, and tokens and hashes of their own what the real
ones do; an access token lives for 15 minutes. -/
def plainServices : Services where
  float8 := exactFloat8
  parseFloat v := match v with
    | some text => if (readDecimal text).isSome then text else "NaN"
    | none => "NaN"
  number v := match v with
    | .num text => text
    | .str text => if (readDecimal text).isSome then text else "NaN"
    | _ => "NaN"
  decimal text := match readDecimal text with
    | some x => twoDecimals x
    | none => .error (.invalidNumeric text)
  timestamp text := if text = "epoch" then .ok 0 else .error (.invalidTimestamp text)
  cents price := toString ⌊(price.bind readDecimal).getD 0 * 100 + 1 / 2⌋
  hash salt password := toString salt ++ "$" ++ password
  compare password hash := decide ((hash.toList.dropWhile (· ≠ '$')).tail = password.toList)
  sign user now := toString user.id ++ "." ++ toString now ++ "." ++ user.email
  verify token now := do
    let text := token.toList
    let rest := (text.dropWhile (· ≠ '.')).tail
    let id ← readDigits 0 (text.takeWhile (· ≠ '.'))
    let issued ← readDigits 0 (rest.takeWhile (· ≠ '.'))
    if now < issued + 15 * 60 * 1000 then
      return ⟨id, String.ofList (rest.dropWhile (· ≠ '.')).tail⟩
    else none

/-- What a handler takes from Node while it runs: the clock, random bytes and the bcrypt salt. -/
structure NodeEnv where
  now : Time
  randomHex : String
  salt : ℕ

/-- What PostgreSQL takes from its surroundings for one statement: its clock, the next
`gen_random_uuid()`, the order in which it returns rows that `ORDER BY` leaves open, and a failure that
has nothing to do with the data. -/
structure Tick where
  now : Time := 0
  uuid : Uuid := 0
  tieBreak : Uuid → ℕ := fun _ => 0
  fault : Option String := none

end Locus.Server
