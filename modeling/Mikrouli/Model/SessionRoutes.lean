import Mikrouli.Model.AuthController
import Mikrouli.Model.GithubOauth

/-! The routes of `auth/auth.controller.ts` that start, renew and end a session, up to the response
that goes out, with the filter of `auth/github-oauth.errors.ts`. The throttler in front of them
keeps its counts in memory and is left out. -/

namespace Mikrouli

open Async

/-! ### Responses -/

inductive CookieHeader where
  | session (cookie : SetCookie)
  | cleared (name path : String)
  deriving DecidableEq, Repr

inductive Returned where
  | profile (user : PublicUser)
  | noContent
  | redirect (location : String)
  deriving DecidableEq, Repr

structure HttpResponse where
  status : Nat
  location : Option String
  body : Option Body
  setCookie : List CookieHeader
  deriving DecidableEq, Repr

/-- What `res` carries when a handler has returned or thrown. -/
structure Handled where
  setCookie : List CookieHeader
  outcome : Except AppError Returned
  deriving Repr

def applySessionCookies (issued : IssuedTokens) : List CookieHeader :=
  [.session issued.cookies.1, .session issued.cookies.2]

def applyClearCookies : List CookieHeader :=
  [.cleared ACCESS_COOKIE_NAME ACCESS_COOKIE_PATH, .cleared REFRESH_COOKIE_NAME REFRESH_COOKIE_PATH]

/-- The rest of a handler once `res` has these cookies: an exception does not take them off. -/
def withCookies (cookies : List CookieHeader) (rest : Prog Returned) : Prog Handled :=
  (do
    let reply ← rest
    pure ⟨cookies, .ok reply⟩ : Prog Handled).tryCatch fun err => pure ⟨cookies, .error err⟩

/-! ### Handlers -/

/-- The query GitHub sends a browser back with. -/
inductive CallbackQuery where
  | error
  | code (providedState : String) (exchange : Option GithubProfile)
  /-- neither an error nor a code: passport starts over -/
  | absent
  deriving DecidableEq, Repr

namespace SessionRoutes

variable (P : Platform)

def login (email password : String) : Prog Handled := do
  match ← AuthService.validateCredentials P email password with
  | none => throw AppError.unauthorized
  | some user =>
    let issued ← AuthService.issueTokens P user
    withCookies (applySessionCookies issued)
      (pure (.profile ⟨user.id, user.email, user.createdAt⟩))

/-- A missing cookie and an empty one are both falsy. -/
def refresh (refreshToken : Option Token) : Prog Handled :=
  match refreshToken with
  | none => throw AppError.unauthorized
  | some token => do
    let issued ← AuthService.rotateRefresh P token
    withCookies (applySessionCookies issued) do
      -- the user is looked up once more, after the new tokens have been stored
      match ← UsersService.findById issued.tokens.accessToken.payload.sub with
      | none => throw AppError.unauthorized
      | some user => pure (.profile ⟨user.id, user.email, user.createdAt⟩)

def logout (refreshToken : Option Token) : Prog Handled :=
  match refreshToken with
  | none => withCookies applyClearCookies (pure .noContent)
  | some token => do
    (AuthService.revokeRefresh P token).tryCatch fun _ =>
      throw (AppError.serviceUnavailable "Session revocation temporarily unavailable")
    withCookies applyClearCookies (pure .noContent)

/-- The guard's part and the handler's. -/
def githubCallback (authorizeUrl : String → String) (query : CallbackQuery) : Prog Handled :=
  match query with
  | .error => throw GithubOauthFailedError
  | .code providedState exchange => do
    let issued ← AuthController.githubCallback P providedState exchange
    withCookies (applySessionCookies issued) (pure (.redirect "/dashboard"))
  | .absent => do
    let token ← AuthController.githubAuthorize
    pure ⟨[], .ok (.redirect (authorizeUrl token))⟩

end SessionRoutes

/-! ### Filters -/

section Filters

variable (T : TextChecks) (isProd : Bool)

def sendProblem (exception : Exception) (setCookie : List CookieHeader) : HttpResponse :=
  let sent := dispatchProblem exception none isProd
  ⟨sent.status, none, some (.problem sent.body), setCookie⟩

/-- Whatever the exception, `res` keeps the cookies it has. -/
def Handled.send (handled : Handled) : HttpResponse :=
  match handled.outcome with
  | .ok (.profile user) => ⟨200, none, some (.user user), handled.setCookie⟩
  | .ok .noContent => ⟨204, none, none, handled.setCookie⟩
  | .ok (.redirect location) => ⟨302, some location, none, handled.setCookie⟩
  | .error err => sendProblem isProd (err.exception T) handled.setCookie

/-- `GithubOauthRedirectFilter`, which the callback has in front of the global filter. -/
def Handled.redirectOrSend (handled : Handled) : HttpResponse :=
  match handled.outcome with
  | .error (.problem p) =>
    if AppError.problem p = GithubOauthFailedError then
      ⟨302, some ("/login?error=" ++ p.typeSlug), none, handled.setCookie⟩
    else handled.send T isProd
  | _ => handled.send T isProd

end Filters

/-! ### Requests -/

inductive SessionRequest where
  | login (body : Json)
  | refresh (refreshToken : Option Token)
  | logout (refreshToken : Option Token)
  | githubCallback (query : CallbackQuery)

/-- A handler in front of its filter. -/
def filtered (handler : Prog Handled) (filter : Handled → HttpResponse) : Prog HttpResponse :=
  filter <$> handler.tryCatch fun err => pure ⟨[], .error err⟩

variable (T : TextChecks) (isProd : Bool) (P : Platform) (authorizeUrl : String → String)

def SessionRequest.respond : SessionRequest → Prog HttpResponse
  | .login body =>
    match ValidationPipe.transform (LoginDto T) body with
    | .error exc => pure (sendProblem isProd (.http exc) [])
    | .ok dto =>
      filtered (SessionRoutes.login P (dto.text "email") (dto.text "password"))
        (Handled.send T isProd)
  | .refresh token => filtered (SessionRoutes.refresh P token) (Handled.send T isProd)
  | .logout token => filtered (SessionRoutes.logout P token) (Handled.send T isProd)
  | .githubCallback query =>
    filtered (SessionRoutes.githubCallback P authorizeUrl query) (Handled.redirectOrSend T isProd)

end Mikrouli
