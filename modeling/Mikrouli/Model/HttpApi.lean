import Mikrouli.Model.Guest
import Mikrouli.Model.JwtAuthGuard
import Mikrouli.Model.SessionRoutes
import Mikrouli.Model.Stats

/-! The HTTP API as one service: every route of the controllers from its guard to what its handler
returns or throws. The throttlers in front of the routes and the filter behind them are left out,
but for the routes of a session, which answer whole responses. -/

namespace Mikrouli

open Async

/-! ### Commands -/

/-- What is awaited beside the other stores: the query of `LinksService.listForUser`, and the Guest's
id that `UsersService` keeps in the memory of its process. -/
inductive HttpCmd where
  | listLinks (userId : String)
  | cachedGuestUserId (process : Nat)
  | cacheGuestUserId (process : Nat) (id : String)

abbrev HttpCmd.Res : HttpCmd → Type
  | .listLinks _ => List Link
  | .cachedGuestUserId _ => Option String
  | .cacheGuestUserId _ _ => Unit

/-- What each process remembers. -/
abbrev Memory := Nat → Option String

/-- `WHERE user_id = userId ORDER BY created_at DESC`: rows of one instant come in any order. -/
def World.isLinksOf (w : World) (userId : String) (links : List Link) : Bool :=
  decide (links.Perm (w.links.rows.filter fun l => decide (l.userId = userId))) &&
    decide (links.Pairwise fun newer older => older.createdAt ≤ newer.createdAt)

def httpQuery (c : HttpCmd) (ch : Choice) (w : World × List Click) (memory : Memory) :
    Option (Except AppError c.Res × Memory) :=
  match c with
  | .listLinks userId =>
    if ch.fault.isSome then some (.error .queryFailed, memory)
    else if w.1.isLinksOf userId ch.batch then some (.ok ch.batch, memory)
    else none
  | .cachedGuestUserId process => some (.ok (memory process), memory)
  | .cacheGuestUserId process id => some (.ok (), Function.update memory process (some id))

abbrev httpApi : Signature := apiWithStats.extend HttpCmd HttpCmd.Res

abbrev HttpProg (α : Type) := Async.Prog httpApi α

abbrev awaitHttp (c : HttpCmd) : HttpProg c.Res := Prog.perform (S := httpApi) (.inr c)

/-- A program of the services, as a route runs it. -/
def within {α : Type} (p : Prog α) : HttpProg α := Prog.lift (Prog.lift p : StatsProg α)

/-! ### Guards -/

/-- What the routes take from elsewhere. -/
structure Deployment where
  platform : Platform
  passport : PassportJwt
  /-- the token a text stands for -/
  decode : String → Token
  /-- its two lookups are commands here -/
  guards : GuardEnv
  validators : Validators
  texts : TextChecks
  isProd : Bool
  authorizeUrl : String → String

/-- A deployment simple enough to compute with: a text stands for the access token that the user
it names is given after five seconds, and nobody shortens as the Guest. -/
def Deployment.plain : Deployment where
  platform := .plain
  passport := .plain fun _ => none
  decode text := .jwt ⟨"access secret", ⟨text, text, none, none, none⟩, 5, 905⟩
  guards := {
    urlHostname := fun _ => none
    guestShortenEnabled := none
    publicBaseUrl := none
    authenticate := fun _ _ => .error UnauthorizedException
    getGuestUserId := .error UnauthorizedException }
  validators := .plain
  texts := .plain
  isProd := true
  authorizeUrl state := state

variable (D : Deployment)

namespace JwtAuthGuard

/-- The id of `req.user`. -/
def run (req : HttpRequest) : HttpProg String :=
  match JwtStrategy.jwtFromRequest D.passport req with
  | some (.string text) => do
    let user ← within (JwtStrategy.authenticate D.platform (D.decode text))
    pure user.id
  | _ => throw AppError.unauthorized

end JwtAuthGuard

namespace ApiKeyAuthGuard

def extractApiKeyHeader (req : HttpRequest) : Option String :=
  match req.header "x-api-key" with
  | some (.one header) => some header
  | _ => none

def run (req : HttpRequest) : HttpProg String :=
  match (extractApiKeyHeader req).filter (· ≠ "") with
  | none => throw AppError.unauthorized
  | some apiKey => do
    match ← within (ApiKeysService.validate D.platform apiKey) with
    | none => throw AppError.unauthorized
    | some userId => pure userId

end ApiKeyAuthGuard

namespace BearerOrApiKeyGuard

def run (req : HttpRequest) : HttpProg String :=
  match chooseAuthMethod req with
  | .ok (some .jwt) => JwtAuthGuard.run D req
  | .ok (some .apiKey) => ApiKeyAuthGuard.run D req
  -- the choice throws for no request
  | .ok none | .error _ => throw AppError.unauthorized

end BearerOrApiKeyGuard

/-- `UsersService.getGuestUserId` with the memory of its process. -/
def rememberedGuestUserId (process : Nat) : HttpProg String := do
  let guestUserId ← awaitHttp (.cachedGuestUserId process)
  let id ← within (UsersService.getGuestUserId guestUserId)
  if guestUserId = none then awaitHttp (.cacheGuestUserId process id)
  pure id

namespace GuestOrAuthenticatedGuard

def run (process : Nat) (req : HttpRequest) : HttpProg LinksController.RequestUser := do
  if carriesApiCredential req then
    let id ← BearerOrApiKeyGuard.run D req
    pure ⟨id, false⟩
  else if isTruthyFlag D.guards.guestShortenEnabled = false then throw AppError.unauthorized
  else if isBrowserRequest D.guards req (resolveAllowedHostnames D.guards req) = false then
    throw AppError.unauthorized
  else
    let guestUserId ← rememberedGuestUserId process
    pure ⟨guestUserId, true⟩

end GuestOrAuthenticatedGuard

/-! ### Requests -/

def MAX_LABEL_LENGTH : Nat := 64

namespace CreateApiKeyDto

def label (T : TextChecks) : Property where
  name := "label"
  type := .plain
  isOptional := false
  constraints := [MaxLength T "label" MAX_LABEL_LENGTH, IsNotEmpty "label", IsString "label"]

end CreateApiKeyDto

def CreateApiKeyDto (T : TextChecks) : Dto := [CreateApiKeyDto.label T]

inductive HttpReq where
  | register (body : Json)
  | session (request : SessionRequest)
  | githubAuthorize
  | me (req : HttpRequest)
  | createLink (process : Nat) (req : HttpRequest) (body : Json)
  | listLinks (req : HttpRequest)
  | removeLink (req : HttpRequest) (slug : String)
  | updateLink (req : HttpRequest) (slug : String) (body : Json)
  | stats (req : HttpRequest) (slug : String)
  | createKey (req : HttpRequest) (body : Json)
  | listKeys (req : HttpRequest)
  | revokeKey (req : HttpRequest) (id : String)
  | usage (req : HttpRequest)
  /-- `POST /api/mcp` with a call of the tool `create_short_link` -/
  | createShortLink (req : HttpRequest) (arguments : Json)
  | redirect (slug : String) (ip userAgent : Option String)
  /-- the hourly job -/
  | cleanup

/-- The request that a guard of the route reads. -/
def HttpReq.guarded? : HttpReq → Option HttpRequest
  | .me req | .createLink _ req _ | .listLinks req | .removeLink req _ | .updateLink req _ _
  | .stats req _ | .createKey req _ | .listKeys req | .revokeKey req _ | .usage req
  | .createShortLink req _ => some req
  | .register _ | .session _ | .githubAuthorize | .redirect _ _ _ | .cleanup => none

/-- The slug in the path of the route. -/
def HttpReq.slug? : HttpReq → Option String
  | .removeLink _ slug | .updateLink _ slug _ | .stats _ slug | .redirect slug _ _ => some slug
  | _ => none

inductive HttpAns where
  | register (response : Response)
  | session (response : HttpResponse)
  | authorize (location : String)
  | profile (user : PublicUser)
  | api (answer : Ans)
  | links (links : List PublicLink)
  | stats (response : StatsResponse)
  | usage (summary : UsageSummaryResponse)
  | redirect (outcome : RedirectOutcome)
  /-- the pipe behind the guard refused the body -/
  | rejected (rejection : Rejection)

/-! ### Routes -/

/-- A handler behind its pipe. -/
def handle (received : Except Rejection Req) : HttpProg HttpAns :=
  match received with
  | .error rejection => pure (.rejected rejection)
  | .ok r => HttpAns.api <$> within (serve D.platform r)

/-- The body of `POST /api/api-keys` behind its pipe. -/
def receiveLabel (T : TextChecks) (userId : String) (body : Json) : Except Rejection Req := do
  let dto ← (ValidationPipe.transform (CreateApiKeyDto T) body).mapError .http
  pure (.createKey userId (dto.text "label"))

/-- The handler behind its guard. -/
def AuthController.me (userId : String) : Prog PublicUser := do
  match ← UsersService.findById userId with
  | none => throw AppError.unauthorized
  | some user => pure ⟨user.id, user.email, user.createdAt⟩

/-- Guards run before pipes: a body is read once its sender is known. -/
def HttpReq.respond : HttpReq → HttpProg HttpAns
  | .register body =>
    HttpAns.register <$> within ((AuthRequest.register body).respond D.texts D.isProd D.platform)
  | .session request =>
    HttpAns.session <$> within (request.respond D.texts D.isProd D.platform D.authorizeUrl)
  | .githubAuthorize => do
    let token ← within AuthController.githubAuthorize
    pure (.authorize (D.authorizeUrl token))
  | .me req => do
    let userId ← JwtAuthGuard.run D req
    HttpAns.profile <$> within (AuthController.me userId)
  | .createLink process req body => do
    let user ← GuestOrAuthenticatedGuard.run D process req
    handle D (receive D.platform D.validators (.postUrls user body))
  | .listLinks req => do
    let userId ← BearerOrApiKeyGuard.run D req
    let links ← awaitHttp (.listLinks userId)
    pure (.links (links.map toPublicLinkSchema))
  | .removeLink req slug => do
    let userId ← BearerOrApiKeyGuard.run D req
    handle D (.ok (.removeLink userId slug))
  | .updateLink req slug body => do
    let userId ← BearerOrApiKeyGuard.run D req
    handle D (receive D.platform D.validators (.patchUrl userId slug body))
  | .stats req slug => do
    let userId ← BearerOrApiKeyGuard.run D req
    HttpAns.stats <$> Prog.lift (StatsController.getStats slug userId)
  | .createKey req body => do
    let userId ← JwtAuthGuard.run D req
    handle D (receiveLabel D.texts userId body)
  | .listKeys req => do
    let userId ← JwtAuthGuard.run D req
    handle D (.ok (.listKeys userId))
  | .revokeKey req id => do
    let userId ← JwtAuthGuard.run D req
    handle D (.ok (.revokeKey userId id))
  | .usage req => do
    let userId ← JwtAuthGuard.run D req
    HttpAns.usage <$> within (UsageService.getSummary D.platform userId)
  | .createShortLink req arguments => do
    let userId ← ApiKeyAuthGuard.run D req
    handle D (receive D.platform D.validators (.createShortLink userId arguments))
  | .redirect slug ip userAgent =>
    HttpAns.redirect <$> Prog.lift (RedirectController.redirect D.platform slug ip userAgent)
  | .cleanup => handle D (.ok .cleanup)

/-! ### Service -/

/-- The clock advances, and a process that starts anew remembers nothing. -/
inductive HttpEnvironment where
  | pass (ms : Nat)
  | restart (process : Nat)

abbrev mikrouliHttp : Service httpApi where
  toMachine := ((machine D.platform).extend clickHouse).extend httpQuery
  Req := HttpReq
  Ans := HttpAns
  prog := HttpReq.respond D
  Env := HttpEnvironment
  tick
    | .pass ms, w => ((w.1.1.advance ms, w.1.2), w.2)
    | .restart process, w => (w.1, Function.update w.2 process none)

end Mikrouli
