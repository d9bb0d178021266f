import Mikrouli.Lib.Interleaving
import Mikrouli.Lib.RateLimit
import Mikrouli.Model.Guards

/-! The rate limits of one API pod: `common/throttler-policy.ts` and the decorators of all
controllers, the address that `trust proxy` of `main.ts` finds, and the proxies of the two stacks. -/

namespace Mikrouli

open Async

/-! ### Routes -/

def AUTH_CREDENTIAL_BUDGET : Budget := ⟨10, 60000⟩
def AUTH_REFRESH_BUDGET : Budget := ⟨60, 60000⟩
def REDIRECT_HOT_PATH_BUDGET : Budget := ⟨120, 10000⟩

inductive Handler where
  | register
  | login
  | refresh
  | logout
  | me
  | githubAuthorize
  | githubCallback
  | createLink
  | listLinks
  | removeLink
  | updateLink
  | createKey
  | listKeys
  | revokeKey
  | getStats
  | getUsage
  | handleMcp
  | handleGet
  | handleDelete
  | redirect
  | check
  deriving DecidableEq, Repr

/-- The names among the keys that are marked. -/
def SkipThrottle (skip : List (String × Bool)) : List String := (skip.filter Prod.snd).map Prod.fst

/-- What is declared on the handler, or on its class. -/
def Handler.route : Handler → GuardedRoute
  | .register | .login | .githubAuthorize | .githubCallback =>
    ⟨[(AUTH_THROTTLE_NAME, AUTH_CREDENTIAL_BUDGET)], [], none, none⟩
  | .refresh => ⟨[(AUTH_THROTTLE_NAME, AUTH_REFRESH_BUDGET)], [], none, none⟩
  | .logout | .me =>
    ⟨[], SkipThrottle [(DEFAULT_THROTTLE_NAME, true), (AUTH_THROTTLE_NAME, true),
      (REDIRECT_THROTTLE_NAME, true), (DATA_THROTTLE_NAME, true)], none, none⟩
  | .createLink => LinksController.createRoute
  | .listLinks | .removeLink | .updateLink | .createKey | .listKeys | .revokeKey | .getStats
  | .getUsage | .handleMcp | .handleGet | .handleDelete =>
    ⟨[], SkipThrottle [(DEFAULT_THROTTLE_NAME, true), (AUTH_THROTTLE_NAME, true),
      (REDIRECT_THROTTLE_NAME, true)], none, none⟩
  | .redirect =>
    ⟨[(REDIRECT_THROTTLE_NAME, REDIRECT_HOT_PATH_BUDGET)],
      SkipThrottle [(DEFAULT_THROTTLE_NAME, true), (AUTH_THROTTLE_NAME, true),
        (DATA_THROTTLE_NAME, true)], none, none⟩
  | .check => ⟨[], [], none, none⟩

/-! ### Addresses -/

/-- A textual IP address. -/
structure Address where
  text : String
  nonempty : text ≠ ""
  plain : ∀ c ∈ text.toList, c ≠ ',' ∧ c ≠ ' '
  deriving DecidableEq

def X_FORWARDED_FOR : String := "x-forwarded-for"

/-- How Express reads `X-Forwarded-For`: its addresses from right to left. -/
structure ForwardedAddresses where
  parse : String → List String
  parse_single : ∀ a : Address, parse a.text = [a.text]
  parse_append : ∀ (header : String) (a : Address),
    parse (header ++ ", " ++ a.text) = a.text :: parse header

/-- `req.ip`: with `trust proxy` a number, the address that many hops away, or the farthest. -/
def ForwardedAddresses.ip (E : ForwardedAddresses) (hops : ℕ) (socket : Address) (req : HttpRequest) :
    String :=
  let addresses := socket.text ::
    ((req.header X_FORWARDED_FOR).map fun header => E.parse header.toString).getD []
  (addresses[min hops (addresses.length - 1)]?).getD socket.text

/-! ### Proxies -/

/-- `$proxy_add_x_forwarded_for` -/
def proxyAddXForwardedFor (remoteAddr : Address) (req : HttpRequest) : String :=
  match req.header X_FORWARDED_FOR with
  | none => remoteAddr.text
  | some header => header.toString ++ ", " ++ remoteAddr.text

/-- What the nginx of either stack hands on to the API, but for the headers nothing here reads. -/
def nginxForward (remoteAddr : Address) (req : HttpRequest) : HttpRequest :=
  { req with
    rawHeaders := (req.rawHeaders.filter fun line => decide (line.1.toLower ≠ X_FORWARDED_FOR)) ++
      [("X-Forwarded-For", proxyAddXForwardedFor remoteAddr req)] }

/-- The ingress controller of the cluster: it puts the address it sees last in the header, whether
or not it believes the rest, and leaves credentials alone. -/
structure Traefik where
  forward : Address → HttpRequest → HttpRequest
  appends : ∀ client req, ∃ value : String,
    (forward client req).header X_FORWARDED_FOR = some (.one value) ∧
      (value = client.text ∨ ∃ header : String, value = header ++ ", " ++ client.text)
  keeps : ∀ client req, ∀ name ∈ ["authorization", "x-api-key"],
    (forward client req).header name = req.header name
  keeps_cookies : ∀ client req, (forward client req).cookies = req.cookies

structure ProxyEdge where
  /-- `TRUST_PROXY_HOPS` -/
  hops : ℕ
  /-- from where the pod is connected to for a client's request, and what arrives -/
  deliver : Address → HttpRequest → Address × HttpRequest

def composeEdge (nginx : Address) : ProxyEdge := ⟨1, fun client req => (nginx, nginxForward client req)⟩

def kubernetesEdge (T : Traefik) (traefik web : Address) : ProxyEdge :=
  ⟨2, fun client req => (web, nginxForward traefik (T.forward client req))⟩

/-! ### The guard -/

/-- One name's counter: of a handler, for an address. -/
structure Hit where
  handler : Handler
  throttler : Throttler
  tracker : String
  deriving DecidableEq

def Hit.budget (hit : Hit) : Budget :=
  (hit.handler.route.throttle.lookup hit.throttler.name).getD hit.throttler.budget

abbrev throttlerStorage : Signature := ⟨Hit, fun _ => Bool, Exception⟩

/-- The request is not let through. -/
def Refuses : Async.Prog throttling Bool → Prop
  | .done passed => passed = false
  | .fail _ => True
  | .await _ k => ∀ res, Refuses (k res)

/-- The request is let through only if `handleRequest` lets `props` pass. -/
def Demands (props : ThrottlerRequest) : Async.Prog throttling Bool → Prop
  | .done passed => passed = false
  | .fail _ => True
  | .await asked k =>
    (asked = props ∧ ∀ res, res ≠ .ok true → Refuses (k res)) ∨ ∀ res, Demands props (k res)

/-- `@nestjs/throttler` with its storage in memory. `canActivate` calls `this.handleRequest` for the
throttlers a route does not skip; `handleRequest` counts requests of one handler from one address by
one name, of which each lasts for `ttl` milliseconds and no more than `limit` may pass in that time. -/
structure ThrottlerModule where
  canActivate : List Throttler → GuardedRoute → HttpRequest → Async.Prog throttling Bool
  asks : ∀ throttlers route req, (canActivate throttlers route req).Only fun props =>
    ∃ t ∈ throttlers, t.name ∉ route.skipThrottle ∧ props = throttlerRequest route req t
  demands : ∀ throttlers route req, ∀ t ∈ throttlers, t.name ∉ route.skipThrottle →
    Demands (throttlerRequest route req t) (canActivate throttlers route req)
  Storage : Type
  empty : Storage
  handleRequest : Hit → ℕ → Storage → Except Exception Bool × Storage
  passes : Storage → RateLimit.Log Hit
  passes_empty : passes empty = []
  passes_ok : ∀ hit now s, (handleRequest hit now s).1 = .ok true →
    passes (handleRequest hit now s).2 = (hit, now) :: passes s ∧
      RateLimit.counting (passes s) hit hit.budget.ttl now < hit.budget.limit
  passes_refused : ∀ hit now s, (handleRequest hit now s).1 ≠ .ok true →
    passes (handleRequest hit now s).2 = passes s

namespace CredentialedRequestThrottlerGuard

/-- The inherited `canActivate`, with the `handleRequest` of this class. -/
def guarding (h : Handler) (tracker : String) :
    Async.Prog throttling Bool → Async.Prog throttlerStorage Bool
  | .done passed => .done passed
  | .fail e => .fail e
  | .await props k =>
    if shedsForCredentialedRequest props then guarding h tracker (k (.ok true))
    else .await ⟨h, props.throttler, tracker⟩ fun res => guarding h tracker (k res)

end CredentialedRequestThrottlerGuard

/-! ### The pod -/

structure PodRequest where
  handler : Handler
  client : Address
  request : HttpRequest
  deriving DecidableEq

structure PodState (M : ThrottlerModule) where
  now : ℕ
  storage : M.Storage

variable (M : ThrottlerModule) (E : ForwardedAddresses) (edge : ProxyEdge)

/-- Whether the throttler lets a request through to the guards of its route. -/
def PodRequest.admission (a : PodRequest) : Async.Prog throttlerStorage Bool :=
  let (socket, req) := edge.deliver a.client a.request
  CredentialedRequestThrottlerGuard.guarding a.handler (E.ip edge.hops socket req)
    (M.canActivate buildThrottlerOptions a.handler.route req)

/-- The requests that reach one pod, and the milliseconds that go by. -/
def pod : Service throttlerStorage where
  World := PodState M
  Choice := Unit
  exec _ hit _ w :=
    let (res, storage) := M.handleRequest hit w.now w.storage
    some (res, { w with storage := storage })
  Req := PodRequest
  Ans := Bool
  prog := PodRequest.admission M E edge
  Env := ℕ
  tick ms w := { w with now := w.now + ms }

end Mikrouli
