import Mikrouli.Model.Users

/-! `auth/auth.service.ts`: credentials, token pairs and the refresh-token allowlist. -/

namespace Mikrouli

open Async

def REFRESH_TOKEN_TTL_SECONDS : Nat := 7 * 24 * 60 * 60
def REFRESH_TOKEN_TYPE : String := "refresh"
def ACCESS_TOKEN_TTL_SECONDS : Nat := 15 * 60
def ACCESS_COOKIE_NAME : String := "mikrouli_access"
def REFRESH_COOKIE_NAME : String := "mikrouli_refresh"
def ACCESS_COOKIE_PATH : String := "/api"
def REFRESH_COOKIE_PATH : String := "/api/auth"
def REVOCATION_KEY_PREFIX : String := "auth:refresh:"
def DECOY_PASSWORD_HASH : String :=
  "$2b$10$abcdefghijklmnopqrstuuVGLMaGqJ8N6mAqfITwHNYOfhBFUEiPi"

structure PublicUser where
  id : String
  email : String
  createdAt : Nat
  deriving DecidableEq, Repr

/-- A `Set-Cookie` header; all of them are `HttpOnly; Secure; SameSite=Strict`. -/
structure SetCookie where
  name : String
  value : Jwt
  path : String
  maxAge : Nat
  deriving DecidableEq, Repr

structure IssuedTokens where
  tokens : TokenPair
  cookies : SetCookie × SetCookie
  deriving DecidableEq, Repr

def buildRevocationKey (family : String) : String := REVOCATION_KEY_PREFIX ++ family

theorem buildRevocationKey_inj {f f' : String}
    (same : buildRevocationKey f = buildRevocationKey f') : f = f' := by
  simpa [buildRevocationKey] using same

def buildAccessPayload (user : User) : JwtPayload := ⟨user.id, user.email, none, none, none⟩

def buildRefreshPayload (user : User) (jti family : String) : JwtPayload :=
  ⟨user.id, user.email, some REFRESH_TOKEN_TYPE, some jti, some family⟩

def decodeRefreshToken (token : Token) (secret : String) : Prog JwtPayload :=
  (await (.verify secret token)).tryCatch fun _ => throw AppError.unauthorized

def assertRefreshType (payload : JwtPayload) : Prog Unit :=
  if payload.type ≠ some REFRESH_TOKEN_TYPE then throw AppError.unauthorized else pure ()

/-- A missing claim and an empty one are both falsy. -/
def refreshClaims (payload : JwtPayload) : Option (String × String) :=
  match payload.jti, payload.family with
  | some jti, some family => if jti = "" ∨ family = "" then none else some (jti, family)
  | _, _ => none

def assertRefreshClaims (payload : JwtPayload) : Prog (String × String) :=
  match refreshClaims payload with
  | some claims => pure claims
  | none => throw AppError.unauthorized

namespace AuthService

variable (P : Platform)

def register (email password : String) : Prog PublicUser := do
  let passwordHash ← await (.bcryptHash password)
  let user ← UsersService.create email (some passwordHash)
  pure ⟨user.id, user.email, user.createdAt⟩

def validateCredentials (email password : String) : Prog (Option User) := do
  let user ← UsersService.findByEmail email
  let passwordHash := user.bind User.passwordHash
  -- the comparison is made also where there is no user, for its time
  let matched := P.bcryptCompare password (passwordHash.getD DECOY_PASSWORD_HASH)
  -- an empty stored hash is as falsy as a missing one
  pure (if passwordHash = none ∨ passwordHash = some "" ∨ matched = false then none else user)

/-- Every pair starts a new family, also when it replaces a rotated refresh token. -/
def issueTokens (user : User) : Prog IssuedTokens := do
  let jti ← await .randomUUID
  let family ← await .randomUUID
  let accessToken ← await (.sign P.jwtSecret (buildAccessPayload user) ACCESS_TOKEN_TTL_SECONDS)
  let refreshToken ← await
    (.sign P.jwtRefreshSecret (buildRefreshPayload user jti family) REFRESH_TOKEN_TTL_SECONDS)
  setOrThrow (buildRevocationKey family) jti (some REFRESH_TOKEN_TTL_SECONDS)
  -- the allowlist is written before anything is answered
  let accessCookie : SetCookie :=
    ⟨ACCESS_COOKIE_NAME, accessToken, ACCESS_COOKIE_PATH, ACCESS_TOKEN_TTL_SECONDS⟩
  let refreshCookie : SetCookie :=
    ⟨REFRESH_COOKIE_NAME, refreshToken, REFRESH_COOKIE_PATH, REFRESH_TOKEN_TTL_SECONDS⟩
  pure ⟨⟨accessToken, refreshToken⟩, accessCookie, refreshCookie⟩

def loginWithGithub (identity : GithubIdentity) : Prog IssuedTokens := do
  let user ← UsersService.findOrCreateFromProvider identity
  issueTokens P user

def rotateRefresh (token : Token) : Prog IssuedTokens := do
  let payload ← decodeRefreshToken token P.jwtRefreshSecret
  assertRefreshType payload
  let (jti, family) ← assertRefreshClaims payload
  match ← getOrThrow (buildRevocationKey family) with
  | none => throw AppError.unauthorized
  | some storedJti =>
    -- the family stands for another token: it ends here
    if storedJti ≠ jti then
      delOrThrow (buildRevocationKey family)
      throw AppError.unauthorized
    else
      match ← UsersService.findById payload.sub with
      | none => throw AppError.unauthorized
      | some user => issueTokens P user

/-- What is left to do once the token verified: nothing without a family. -/
def revokeFamily (payload : JwtPayload) : Prog Unit :=
  match payload.family with
  | none => pure ()
  | some family => if family = "" then pure () else delOrThrow (buildRevocationKey family)

/-- A token that does not verify counts as already revoked. -/
def revokeRefresh (token : Token) : Prog Unit := do
  let verified ← (do
    let payload ← await (.verify P.jwtRefreshSecret token)
    pure (some payload) : Prog (Option JwtPayload)).tryCatch fun _ => pure none
  match verified with
  | none => pure ()
  | some payload => revokeFamily payload

end AuthService

/-- `AuthController.login` up to its response. -/
def AuthController.login (P : Platform) (email password : String) : Prog IssuedTokens := do
  match ← AuthService.validateCredentials P email password with
  | none => throw AppError.unauthorized
  | some user => AuthService.issueTokens P user

end Mikrouli
