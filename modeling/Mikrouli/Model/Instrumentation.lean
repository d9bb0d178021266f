import Mikrouli.Lib.FormUrlencoded
import Mikrouli.Model.Validation

/-! The tracing of the API: what becomes of a span's attributes up to its export. -/

namespace Mikrouli.Tracing

open FormUrlencoded

/-- A record of attributes. -/
abbrev Attributes := String → Option Json

def REDACTED_VALUE : String := "[REDACTED]"

def SENSITIVE_HEADER_NAMES : List String := ["authorization", "x-api-key", "cookie", "set-cookie"]

def SENSITIVE_HEADER_PREFIXES : List String := ["http.request.header.", "http.response.header."]

def SENSITIVE_NETWORK_KEYS : List String :=
  ["http.client.ip", "net.peer.ip", "net.sock.peer.addr", "client.address", "client.socket.address"]

def URL_ATTRIBUTE_KEYS : List String := ["http.target", "http.url", "url.full", "url.path"]

def PII_QUERY_PARAMS : List String :=
  ["email", "password", "token", "access_token", "refresh_token", "api_key", "apiKey"]

/-- The header keys of one direction. -/
def headerKeys (direction : String) : List String :=
  SENSITIVE_HEADER_NAMES.map fun name => direction ++ name

def piiHeaderKeys : List String := SENSITIVE_HEADER_PREFIXES.flatMap headerKeys

def isPiiKey (key : String) : Bool := (SENSITIVE_NETWORK_KEYS ++ piiHeaderKeys).contains key

def isUrlLikeKey (key : String) : Bool := URL_ATTRIBUTE_KEYS.contains key

/-! ### The sanitiser -/

def redactSearchParams (params : Params) : Params :=
  PII_QUERY_PARAMS.foldl
    (fun params key => if has params key then set key REDACTED_VALUE params else params) params

/-- The part before the first question mark, and the part after it. -/
def base (url : String) : String := .ofList (url.toList.takeWhile (· ≠ '?'))

def query (url : String) : String := .ofList ((url.toList.dropWhile (· ≠ '?')).drop 1)

def redactQueryString (url : String) : String :=
  if '?' ∈ url.toList then
    let qs := FormUrlencoded.toString (redactSearchParams (ofString (query url)))
    if qs.toList.length = 0 then base url else base url ++ "?" ++ qs
  else url

def redactValueFor (key : String) (value : Json) : Json :=
  if isPiiKey key then .str REDACTED_VALUE
  else
    match value with
    | .str url => if isUrlLikeKey key then .str (redactQueryString url) else value
    | _ => value

def sanitiseAttributes (attrs : Attributes) : Attributes :=
  fun key =>
    -- an assignment to this key of a plain object gives it no property
    if key = "__proto__" then none else (attrs key).map (redactValueFor key)

/-! ### The hooks -/

/-- Attributes of a span are only added or overwritten. -/
def setAttributes (map span : Attributes) : Attributes := fun key => (map key).or (span key)

def setAttribute (key : String) (value : Json) (span : Attributes) : Attributes :=
  setAttributes (fun key' => if key' = key then some value else none) span

/-- An empty value for every sensitive header of one direction. -/
def blankAttributesForPrefix (direction : String) : Attributes :=
  fun key => if key ∈ headerKeys direction then some (.str "") else none

def applyAttributeMap (map span : Attributes) : Attributes :=
  setAttributes (sanitiseAttributes map) span

def redactRequestHeaders (span : Attributes) : Attributes :=
  applyAttributeMap (blankAttributesForPrefix "http.request.header.") span

def redactResponseHeaders (span : Attributes) : Attributes :=
  applyAttributeMap (blankAttributesForPrefix "http.response.header.") span

structure IncomingMessage where
  headers : String → Option String

def requestHook (request : IncomingMessage) (span : Attributes) : Attributes :=
  let span := redactRequestHeaders span
  match request.headers "x-correlation-id" with
  -- an empty header is as good as none
  | some correlationId =>
    if correlationId = "" then span
    else setAttribute "app.correlation_id" (.str correlationId) span
  | none => span

def responseHook (span : Attributes) : Attributes := redactResponseHeaders span

/-- What the HTTP instrumentation itself puts on the span of one request: when it starts it, between
the hooks, and from then on until it ends it. -/
structure HttpInstrumentation where
  atStart : Attributes
  between : Attributes
  atEnd : Attributes

/-- The attributes that reach the exporter: the SDK is set up with an exporter and these hooks,
and with no processor of its own. -/
def exported (http : HttpInstrumentation) (request : IncomingMessage) : Attributes :=
  setAttributes http.atEnd
    (responseHook (setAttributes http.between (requestHook request http.atStart)))

end Mikrouli.Tracing
