import Mathlib.Data.Rat.Defs
import Mikrouli.Lib.Prog
import Mikrouli.Model.Auth
import Mikrouli.Model.Links
import Mikrouli.Model.Problems

/-! The guards in front of `POST /api/urls`: `common/credential-presence.ts`,
`common/credentialed-request-throttler.guard.ts`, `common/throttler-policy.ts` and the guards in
`api-keys/`. Passport, the check of an API key, the lookup of the Guest row and the base class of
the throttler guard are parameters. -/

namespace Mikrouli

open Async

/-! ### Requests -/

/-- What `JSON.parse` may give. -/
inductive JsValue where
  | null
  | bool (b : Bool)
  | number (x : ℚ)
  | string (s : String)
  | object
  deriving DecidableEq

/-- `Boolean(value)` -/
def JsValue.truthy : JsValue → Bool
  | .null => false
  | .bool b => b
  | .number x => decide (x ≠ 0)
  | .string s => decide (s ≠ "")
  | .object => true

inductive HeaderValue where
  | one (s : String)
  | many (ss : List String)
  deriving DecidableEq, Repr

def HeaderValue.truthy : HeaderValue → Bool
  | .one s => decide (s ≠ "")
  | .many _ => true

/-- The value where a string is wanted. -/
def HeaderValue.toString : HeaderValue → String
  | .one s => s
  | .many ss => String.intercalate "," ss

/-- A request: its header lines in order, and what the cookie parser made of its cookies. -/
structure HttpRequest where
  rawHeaders : List (String × String)
  cookies : Option (List (String × JsValue))
  deriving DecidableEq

/-- Of these headers Node keeps the first line and drops the others. -/
def SINGLE_HEADERS : List String :=
  ["age", "authorization", "content-length", "content-type", "etag", "expires", "from", "host",
    "if-modified-since", "if-unmodified-since", "last-modified", "location", "max-forwards",
    "proxy-authorization", "referer", "retry-after", "server", "user-agent"]

namespace HttpRequest

variable (req : HttpRequest)

/-- The values of the lines with this name, which is given in lower case. -/
def lines (name : String) : List String :=
  (req.rawHeaders.filter fun line => decide (line.1.toLower = name)).map Prod.snd

/-- `headers[name]`, as Node makes it of the lines. -/
def header (name : String) : Option HeaderValue :=
  match req.lines name with
  | [] => none
  | line :: rest => some <|
    if name = "set-cookie" then .many (line :: rest)
    else if name ∈ SINGLE_HEADERS then .one line
    else if name = "cookie" then .one (String.intercalate "; " (line :: rest))
    else .one (String.intercalate ", " (line :: rest))

def cookie? (name : String) : Option JsValue := req.cookies.bind fun cookies => cookies.lookup name

end HttpRequest

/-! ### Credentials -/

def startsWith (start s : String) : Bool := start.toList.isPrefixOf s.toList

def carriesApiCredential (req : HttpRequest) : Bool :=
  -- the scheme is enough, whatever follows it
  let bearer := match req.header "authorization" with
    | some (.one authorization) => startsWith "Bearer " authorization
    | _ => false
  if bearer then true
  else if (req.header "x-api-key").any HeaderValue.truthy then true
  else (req.cookie? ACCESS_COOKIE_NAME).any JsValue.truthy

inductive AuthMethod where
  | jwt
  | apiKey
  deriving DecidableEq, Repr

def hasCookieToken (req : HttpRequest) : Bool :=
  (req.cookie? ACCESS_COOKIE_NAME).any JsValue.truthy

/-- `headers.authorization?.startsWith('Bearer ')`; an array has no such method. -/
def bearerStarts (authorization : Option HeaderValue) : Except Exception Bool :=
  match authorization with
  | none => .ok false
  | some (.one s) => .ok (startsWith "Bearer " s)
  | some (.many _) => .error (.other "headers.authorization?.startsWith is not a function")

def chooseAuthMethod (req : HttpRequest) : Except Exception (Option AuthMethod) := do
  let bearer ← bearerStarts (req.header "authorization")
  if bearer then pure (some .jwt)
  else if (req.header "x-api-key").any HeaderValue.truthy then pure (some .apiKey)
  else if hasCookieToken req then pure (some .jwt)
  else pure none

/-! ### Authentication -/

def UnauthorizedException : Exception := .http (.new .plain 401)

def ForbiddenException : Exception := .http (.new .plain 403)

/-- What the guards take from elsewhere. -/
structure GuardEnv where
  /-- `new URL(s).hostname`, none when the constructor throws -/
  urlHostname : String → Option String
  guestShortenEnabled : Option String
  publicBaseUrl : Option String
  /-- the user that `JwtAuthGuard` or `ApiKeyAuthGuard` finds -/
  authenticate : AuthMethod → HttpRequest → Except Exception String
  getGuestUserId : Except Exception String

namespace BearerOrApiKeyGuard

def canActivate (env : GuardEnv) (req : HttpRequest) :
    Except Exception LinksController.RequestUser := do
  match ← chooseAuthMethod req with
  | none => throw UnauthorizedException
  | some method =>
    let id ← env.authenticate method req
    pure ⟨id, false⟩

end BearerOrApiKeyGuard

namespace GuestOrAuthenticatedGuard

def isTruthyFlag (raw : Option String) : Bool := decide ((raw.getD "true").toLower = "true")

def isBrowserRequest (env : GuardEnv) (req : HttpRequest) (allowedHostnames : List String) : Bool :=
  let allowed (header : HeaderValue) : Bool :=
    (env.urlHostname header.toString).any fun hostname => decide (hostname ∈ allowedHostnames)
  if allowedHostnames = [] then false
  else match (req.header "origin").filter HeaderValue.truthy with
    -- an origin that is not allowed is not made up for by the referer
    | some origin => allowed origin
    | none => ((req.header "referer").filter HeaderValue.truthy).any allowed

def resolveAllowedHostnames (env : GuardEnv) (req : HttpRequest) : List String :=
  let base := (env.publicBaseUrl.filter (· ≠ "")).bind fun url => (env.urlHostname url).filter (· ≠ "")
  let host := ((req.header "host").filter HeaderValue.truthy).bind fun host =>
    (some (String.ofList (host.toString.toList.takeWhile (· ≠ ':')))).filter (· ≠ "")
  (base.toList ++ host.toList).dedup

def canActivate (env : GuardEnv) (req : HttpRequest) :
    Except Exception LinksController.RequestUser := do
  -- a request with a credential never falls back to the Guest
  if carriesApiCredential req then BearerOrApiKeyGuard.canActivate env req
  else if isTruthyFlag env.guestShortenEnabled = false then throw UnauthorizedException
  else if isBrowserRequest env req (resolveAllowedHostnames env req) = false then
    throw UnauthorizedException
  else
    let guestUserId ← env.getGuestUserId
    pure ⟨guestUserId, true⟩

end GuestOrAuthenticatedGuard

/-! ### Throttling -/

structure Budget where
  limit : Nat
  ttl : Nat
  deriving DecidableEq, Repr

structure Throttler where
  name : String
  budget : Budget
  deriving DecidableEq, Repr

def DEFAULT_THROTTLE_NAME : String := "default"
def AUTH_THROTTLE_NAME : String := "auth"
def REDIRECT_THROTTLE_NAME : String := "redirect"
def DATA_THROTTLE_NAME : String := "data"

def DEFAULT_MODULE_BUDGET : Budget := ⟨300, 60000⟩
def AUTH_MODULE_BUDGET : Budget := ⟨300, 60000⟩
def REDIRECT_MODULE_BUDGET : Budget := ⟨120, 10000⟩
def DATA_MODULE_BUDGET : Budget := ⟨1000, 60000⟩
def GUEST_CREATE_BUDGET : Budget := ⟨30, 60000⟩

def buildThrottlerOptions : List Throttler :=
  [⟨DEFAULT_THROTTLE_NAME, DEFAULT_MODULE_BUDGET⟩, ⟨AUTH_THROTTLE_NAME, AUTH_MODULE_BUDGET⟩,
    ⟨REDIRECT_THROTTLE_NAME, REDIRECT_MODULE_BUDGET⟩, ⟨DATA_THROTTLE_NAME, DATA_MODULE_BUDGET⟩]

/-- The names among the keys that are marked. -/
def SkipThrottleWhenCredentialed (skip : List (String × Bool)) : List String :=
  (skip.filter Prod.snd).map Prod.fst

/-- What the decorators of a handler, and of its class, say about throttling. -/
structure GuardedRoute where
  throttle : List (String × Budget)
  skipThrottle : List String
  handlerSheds : Option (List String)
  classSheds : Option (List String)
  deriving DecidableEq, Repr

structure ThrottlerRequest where
  route : GuardedRoute
  request : HttpRequest
  throttler : Throttler
  /-- the throttler's own budget, or the one the route puts in its place -/
  budget : Budget
  deriving DecidableEq

/-- What the guard asks about one throttler. -/
def throttlerRequest (route : GuardedRoute) (req : HttpRequest) (throttler : Throttler) :
    ThrottlerRequest :=
  ⟨route, req, throttler, (route.throttle.lookup throttler.name).getD throttler.budget⟩

abbrev throttling : Signature := ⟨ThrottlerRequest, fun _ => Bool, Exception⟩

/-- On every way to letting the request pass, `handleRequest` is called with `props`. -/
def Evaluates (props : ThrottlerRequest) : Async.Prog throttling Bool → Prop
  | .done passed => passed = false
  | .fail _ => True
  | .await asked k => asked = props ∨ ∀ res, Evaluates props (k res)

/-- `ThrottlerGuard` of `@nestjs/throttler`: its `handleRequest` counts a hit against one budget,
its `canActivate` calls `this.handleRequest` for every throttler that the route does not skip. -/
structure ThrottlerGuard where
  State : Type
  hits : State → List ThrottlerRequest
  handleRequest : ThrottlerRequest → State → Except Exception Bool × State
  canActivate : List Throttler → GuardedRoute → HttpRequest → Async.Prog throttling Bool
  counts : ∀ props s, hits (handleRequest props s).2 = props :: hits s
  evaluates : ∀ throttlers route req, ∀ t ∈ throttlers, t.name ∉ route.skipThrottle →
    Evaluates (throttlerRequest route req t) (canActivate throttlers route req)

namespace CredentialedRequestThrottlerGuard

def shedsForCredentialedRequest (props : ThrottlerRequest) : Bool :=
  -- the handler's decorator hides the one of its class
  let shedNames := (props.route.handlerSheds.or props.route.classSheds).getD []
  if props.throttler.name ∉ shedNames then false else carriesApiCredential props.request

def handleRequest (G : ThrottlerGuard) (props : ThrottlerRequest) (s : G.State) :
    Except Exception Bool × G.State :=
  if shedsForCredentialedRequest props then (.ok true, s) else G.handleRequest props s

/-- The inherited `canActivate`. -/
def canActivate (G : ThrottlerGuard) (route : GuardedRoute) (req : HttpRequest) (s : G.State) :
    Except Exception Bool × G.State :=
  (G.canActivate buildThrottlerOptions route req).eval (handleRequest G) s

end CredentialedRequestThrottlerGuard

namespace LinksController

def createRoute : GuardedRoute where
  throttle := [(DEFAULT_THROTTLE_NAME, GUEST_CREATE_BUDGET)]
  skipThrottle := []
  handlerSheds := some <| SkipThrottleWhenCredentialed
    [(DEFAULT_THROTTLE_NAME, true), (AUTH_THROTTLE_NAME, true), (REDIRECT_THROTTLE_NAME, true)]
  classSheds := none

/-- Who `POST /api/urls` lets through: the global guard comes first, then the route's. -/
def admitCreate (G : ThrottlerGuard) (env : GuardEnv) (req : HttpRequest) (s : G.State) :
    Except Exception RequestUser × G.State :=
  -- hits stay counted whatever the second guard decides
  match CredentialedRequestThrottlerGuard.canActivate G createRoute req s with
  | (.error e, s') => (.error e, s')
  | (.ok false, s') => (.error ForbiddenException, s')
  | (.ok true, s') => (GuestOrAuthenticatedGuard.canActivate env req, s')

end LinksController

end Mikrouli
