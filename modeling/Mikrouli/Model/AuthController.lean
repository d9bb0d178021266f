import Mikrouli.Model.Validation

/-! `auth/auth.controller.ts` with `auth/dto/*.ts`: registration and password login from the
request body to the response. -/

namespace Mikrouli

open Async

/-! ### Text checks -/

/-- What the DTOs take from validator, and the texts of the errors that libraries throw. -/
structure TextChecks where
  isEmail : String → Bool
  /-- `isLength(s, { min, max })` -/
  isLength : Nat → Option Nat → String → Bool
  message : AppError → String

def TextChecks.plain : TextChecks where
  isEmail s := s.toList.contains '@'
  isLength low high s := decide (low ≤ s.toList.length) && high.all fun n => decide (s.toList.length ≤ n)
  message _ := "failed"

def PASSWORD_MIN_LENGTH : Nat := 8
def PASSWORD_MAX_LENGTH : Nat := 128
def EMAIL_MAX_LENGTH : Nat := 255
def PASSWORD_COMPLEXITY_MESSAGE : String := "password must contain upper, lower, and digit"

/-- What `.` does not match. -/
def isLineTerminator (c : Char) : Bool :=
  decide (c = '\n') || decide (c = '\r') || decide (c = '\u2028') || decide (c = '\u2029')

/-- `/(?=.*[A-Z])(?=.*[a-z])(?=.*[0-9])/`: all three look ahead from one position. -/
def PASSWORD_COMPLEXITY_PATTERN (s : String) : Bool :=
  s.toList.tails.any fun rest =>
    -- `.*` ends at the line
    let line := rest.takeWhile fun c => !isLineTerminator c
    line.any (fun c => decide ('A' ≤ c ∧ c ≤ 'Z')) &&
      line.any (fun c => decide ('a' ≤ c ∧ c ≤ 'z')) &&
      line.any fun c => decide ('0' ≤ c ∧ c ≤ '9')

/-! ### Decorators -/

/-- A check of class-validator that only strings pass. -/
def stringCheck (name message : String) (test : String → Bool) : Constraint where
  name := name
  message := message
  holds
    | some (.plain (.str s)) => test s
    | _ => false

variable (T : TextChecks)

def IsEmail (property : String) : Constraint :=
  stringCheck "isEmail" (property ++ " must be an email") T.isEmail

def IsString (property : String) : Constraint :=
  stringCheck "isString" (property ++ " must be a string") fun _ => true

def MinLength (property : String) (min : Nat) : Constraint :=
  stringCheck "minLength"
    (property ++ " must be longer than or equal to " ++ toString min ++ " characters")
    (T.isLength min none)

def MaxLength (property : String) (max : Nat) : Constraint :=
  stringCheck "maxLength"
    (property ++ " must be shorter than or equal to " ++ toString max ++ " characters")
    (T.isLength 0 (some max))

def Matches (pattern : String → Bool) (message : String) : Constraint :=
  stringCheck "matches" message pattern

def IsNotEmpty (property : String) : Constraint where
  name := "isNotEmpty"
  message := property ++ " should not be empty"
  holds
    | none | some (.plain .null) => false
    | some (.plain (.str s)) => decide (s ≠ "")
    | _ => true

/-! ### DTOs -/

namespace RegisterDto

def email : Property where
  name := "email"
  type := .plain
  isOptional := false
  constraints := [MaxLength T "email" EMAIL_MAX_LENGTH, IsEmail T "email"]

def password : Property where
  name := "password"
  type := .plain
  isOptional := false
  constraints := [
    Matches PASSWORD_COMPLEXITY_PATTERN PASSWORD_COMPLEXITY_MESSAGE,
    MaxLength T "password" PASSWORD_MAX_LENGTH,
    MinLength T "password" PASSWORD_MIN_LENGTH,
    IsString "password"]

end RegisterDto

def RegisterDto : Dto := [RegisterDto.email T, RegisterDto.password T]

namespace LoginDto

def email : Property where
  name := "email"
  type := .plain
  isOptional := false
  constraints := [IsEmail T "email"]

def password : Property where
  name := "password"
  type := .plain
  isOptional := false
  constraints := [IsNotEmpty "password", IsString "password"]

end LoginDto

def LoginDto : Dto := [LoginDto.email T, LoginDto.password]

/-- `dto[key]`: the checks let only strings through. -/
def Instance.text (dto : Instance) (key : String) : String :=
  match dto.lookup key with
  | some (.plain (.str s)) => s
  | _ => ""

/-! ### Responses -/

inductive Body where
  | user (profile : PublicUser)
  | problem (details : ProblemDetails)
  deriving DecidableEq, Repr

structure Response where
  status : Nat
  body : Body
  cookies : List SetCookie
  deriving DecidableEq, Repr

/-- What reaches the global filter when a service throws. -/
def AppError.exception (err : AppError) : Exception :=
  match err.http? with
  | some exc => .http exc
  | none =>
    -- the filter knows a failed query by its class, any other error by its message
    if err = .queryFailed ∨ err = .uniqueViolation then .queryFailed else .other (T.message err)

variable (isProd : Bool)

/-- The correlation id goes into a header of its own. -/
def problemResponse (exception : Exception) : Response :=
  let sent := dispatchProblem exception none isProd
  ⟨sent.status, .problem sent.body, []⟩

/-! ### Handlers -/

namespace AuthController

variable (P : Platform)

def handleRegister (email password : String) : Prog Response := do
  let user ← AuthService.register email password
  pure ⟨201, .user user, []⟩

def handleLogin (email password : String) : Prog Response := do
  match ← AuthService.validateCredentials P email password with
  | none => throw AppError.unauthorized
  | some user =>
    let issued ← AuthService.issueTokens P user
    pure ⟨200, .user ⟨user.id, user.email, user.createdAt⟩, [issued.cookies.1, issued.cookies.2]⟩

end AuthController

/-! ### Requests -/

/-- The body of `POST /api/auth/register` or of `POST /api/auth/login`. -/
inductive AuthRequest where
  | register (body : Json)
  | login (body : Json)

/-- What a handler is called with. -/
inductive Credentials where
  | register (email password : String)
  | login (email password : String)
  deriving DecidableEq, Repr

def Credentials.email : Credentials → String
  | .register email _ | .login email _ => email

def AuthRequest.receive : AuthRequest → Except HttpException Credentials
  | .register body => do
    let dto ← ValidationPipe.transform (RegisterDto T) body
    pure (.register (dto.text "email") (dto.text "password"))
  | .login body => do
    let dto ← ValidationPipe.transform (LoginDto T) body
    pure (.login (dto.text "email") (dto.text "password"))

variable (P : Platform)

def Credentials.handle : Credentials → Prog Response
  | .register email password => AuthController.handleRegister email password
  | .login email password => AuthController.handleLogin P email password

/-- The handler's response, or what the filter makes of its exception. -/
def Credentials.respond (c : Credentials) : Prog Response :=
  (c.handle P).tryCatch fun err => pure (problemResponse isProd (err.exception T))

def AuthRequest.respond (r : AuthRequest) : Prog Response :=
  match r.receive T with
  | .error exc => pure (problemResponse isProd (.http exc))
  | .ok c => c.respond T isProd P

end Mikrouli
