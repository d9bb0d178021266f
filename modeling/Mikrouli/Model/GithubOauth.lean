import Mikrouli.Model.Api

/-! `auth/github.strategy.ts` and the two GitHub routes of `auth/auth.controller.ts`. -/

namespace Mikrouli

open Async

def OAUTH_STATE_KEY_PREFIX : String := "auth:oauth:state:"
def OAUTH_STATE_TTL_SECONDS : Nat := 600

def GithubOauthFailedError : AppError := .problem {
  typeSlug := "github-oauth-failed"
  title := "OAuth Authentication Failed"
  detail := "GitHub authentication could not be completed."
  status := 401 }

/-! ### The state store

Both methods are given the request and neither reads it. -/

namespace GithubStateStore

def stateKey (state : String) : String := OAUTH_STATE_KEY_PREFIX ++ state

def store : Prog String := do
  let token ← await .randomState
  setOrThrow (stateKey token) "1" (some OAUTH_STATE_TTL_SECONDS)
  pure token

def verify (providedState : String) : Prog Bool := do
  match ← getDelOrThrow (stateKey providedState) with
  | none => pure false
  -- the value under the key is never looked at
  | some _ => pure true

end GithubStateStore

/-! ### The identity -/

structure GithubEmail where
  email : String
  verified : Bool
  primary : Bool
  deriving DecidableEq, Repr

/-- What GitHub answers once the code is exchanged: the profile's id and the list of emails, none
when it cannot be fetched. -/
structure GithubProfile where
  id : String
  emails : Option (List GithubEmail)
  deriving DecidableEq, Repr

def selectVerifiedEmail (emails : List GithubEmail) : Option String :=
  let verified := emails.filter GithubEmail.verified
  -- a primary address that is not verified does not count
  match verified.find? GithubEmail.primary with
  | some primary => some primary.email
  | none => verified.head?.map GithubEmail.email

/-- `GithubStrategy.validate`; what it fails with, the guard turns into one error. -/
def validateProfile (profile : GithubProfile) : Option GithubIdentity := do
  let emails ← profile.emails
  let email ← selectVerifiedEmail emails
  some ⟨profile.id, email⟩

/-! ### The routes -/

namespace AuthController

/-- `GET auth/github`: the token goes to GitHub and back in the callback's query. -/
def githubAuthorize : Prog String :=
  GithubStateStore.store.tryCatch fun _ => throw GithubOauthFailedError

/-- `GET auth/github/callback` with what GitHub answers for its code, none when the exchange fails.
The state is consumed before the code is exchanged. -/
def githubCallback (P : Platform) (providedState : String) (exchange : Option GithubProfile) :
    Prog IssuedTokens := do
  let ok ← (GithubStateStore.verify providedState).tryCatch fun _ => throw GithubOauthFailedError
  if ok = false then throw GithubOauthFailedError
  else match exchange.bind validateProfile with
    | none => throw GithubOauthFailedError
    | some identity => AuthService.loginWithGithub P identity

end AuthController

/-! ### The service -/

/-- The state store's calls, the callback, and every other request. -/
inductive OauthReq where
  | store (browser : String)
  | verify (browser providedState : String)
  | callback (browser providedState : String) (exchange : Option GithubProfile)
  | other (r : Req)
  deriving DecidableEq, Repr

inductive OauthAns where
  | state (token : String)
  | verified (ok : Bool)
  | issued (tokens : IssuedTokens)
  | other (a : Ans)
  deriving DecidableEq, Repr

variable (P : Platform)

def serveOauth : OauthReq → Prog OauthAns
  | .store _ => OauthAns.state <$> AuthController.githubAuthorize
  | .verify _ providedState => OauthAns.verified <$> GithubStateStore.verify providedState
  | .callback _ providedState exchange =>
    OauthAns.issued <$> AuthController.githubCallback P providedState exchange
  | .other r => OauthAns.other <$> serve P r

/-- The API with its sign-in through GitHub, every request labelled with its browser. -/
abbrev signingIn : Service api where
  toMachine := machine P
  Req := OauthReq
  Ans := OauthAns
  prog := serveOauth P
  Env := Nat
  tick := World.advance

end Mikrouli
