import Mikrouli.Model.Auth

/-! `auth/jwt.strategy.ts`: which tokens are taken as access tokens, and for whom. -/

namespace Mikrouli

open Async

namespace JwtStrategy

structure RequestUser where
  id : String
  email : String
  isGuest : Bool
  deriving DecidableEq, Repr

def isAccessToken (payload : JwtPayload) : Bool := decide (payload.type ≠ some "refresh")

def validate (payload : JwtPayload) : Prog RequestUser :=
  -- any type but `refresh` passes, also none
  if isAccessToken payload then pure ⟨payload.sub, payload.email, false⟩
  else throw AppError.unauthorized

/-- Passport verifies with `JWT_SECRET` before it calls `validate`; whatever fails is a 401. -/
def authenticate (P : Platform) (token : Token) : Prog RequestUser := do
  let payload ← (await (.verify P.jwtSecret token)).tryCatch fun _ => throw AppError.unauthorized
  validate payload

end JwtStrategy

end Mikrouli
