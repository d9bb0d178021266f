import Mikrouli.Model.Api
import Mikrouli.Model.Problems

/-! How requests that carry a destination are validated: `links/dto/*.ts`, the global pipe of
`main.ts` and `mcp/create-short-link.handler.ts`, with what they use of class-transformer and
class-validator. -/

namespace Mikrouli

/-! ### Bodies -/

/-- A parsed request body. A number stands as it was written; of two fields with one key the
first counts. -/
inductive Json where
  | null
  | bool (b : Bool)
  | num (literal : String)
  | str (s : String)
  | arr (elements : List Json)
  | obj (fields : List (String × Json))

/-! ### Platform -/

/-- An address as `ipaddr.parse` names its range; an IPv6 address may map an IPv4 address, whose
own range is then known as well. -/
inductive IpAddress where
  | ipv4 (range : String)
  | ipv6 (range : String) (mapped : Option String)
  deriving DecidableEq, Repr

structure IsUrlOptions where
  protocols : List String
  requireProtocol : Bool
  maxAllowedLength : Nat
  deriving DecidableEq, Repr

/-- What the validation takes from its runtime and from validator and ipaddr.js. -/
structure Validators where
  /-- `new URL(s).hostname` where the constructor does not throw -/
  urlHostname : String → String
  isURL : IsUrlOptions → String → Bool
  ipaddrIsValid : String → Bool
  /-- `ipaddr.parse`, none when it throws -/
  ipaddrParse : String → Option IpAddress
  /-- the time of `new Date(value)`, none for an invalid date -/
  newDate : Json → Option Int

/-- Validators simple enough to compute with. -/
def Validators.plain : Validators where
  urlHostname url := String.ofList (((url.toList.dropWhile (· ≠ '/')).drop 2).takeWhile (· ≠ '/'))
  isURL options url :=
    decide ((codeUnits url).length ≤ options.maxAllowedLength) && url.toList.contains '.'
  ipaddrIsValid host := host.toList.all fun c => c.isDigit || decide (c = '.')
  ipaddrParse host :=
    some (.ipv4 (if "127.".toList.isPrefixOf host.toList then "loopback" else "unicast"))
  newDate _ := none

/-! ### Public URLs -/

def BLOCKED_IPV4_RANGES : List String := ["private", "loopback", "linkLocal", "unspecified"]
def BLOCKED_IPV6_RANGES : List String := ["loopback", "linkLocal", "uniqueLocal", "unspecified"]

def isBlockedAddress : IpAddress → Bool
  | .ipv6 _ (some range) => BLOCKED_IPV4_RANGES.contains range
  | .ipv6 range none => BLOCKED_IPV6_RANGES.contains range
  | .ipv4 range => BLOCKED_IPV4_RANGES.contains range

variable (P : Platform) (V : Validators)

/-- The host without the brackets of an IPv6 literal. -/
def stripBrackets (urlHost : String) : String :=
  if urlHost.toList.head? = some '[' ∧ urlHost.toList.getLast? = some ']' then
    String.ofList urlHost.toList.tail.dropLast
  else urlHost

def hostIsBlockedLiteralIp (urlHost : String) : Bool :=
  let host := stripBrackets urlHost
  V.ipaddrIsValid host && (V.ipaddrParse host).any isBlockedAddress

/-! ### Instances -/

/-- A property of an instance: as it came, or made a date. An invalid date has no time. -/
inductive Value where
  | plain (j : Json)
  | date (time : Option Int)
  /-- anything else: a list of dates, a class, an instance -/
  | other

/-- Neither undefined nor null. -/
def isPresent : Option Value → Bool
  | none | some (.plain .null) => false
  | _ => true

/-- The own properties of an object. -/
abbrev Instance := List (String × Value)

/-- One check of a property, with the name and the message of its error. -/
structure Constraint where
  name : String
  message : String
  holds : Option Value → Bool

/-- A property of a DTO: the type its values are made, and its decorators. -/
structure Property where
  name : String
  type : Json → Value
  isOptional : Bool
  /-- in the order in which they are registered, the last decorator first -/
  constraints : List Constraint

abbrev Dto := List Property

/-- `@Type(() => Date)` -/
def toDate : Json → Value
  | .null => .plain .null
  -- an array becomes an array of dates
  | .arr _ => .other
  | j => .date (V.newDate j)

/-- Keys an instance does not take over: the first two by name, the others because it inherits a
function under them. -/
def SKIPPED_KEYS : List String :=
  ["__proto__", "constructor", "hasOwnProperty", "isPrototypeOf", "propertyIsEnumerable",
    "toString", "toLocaleString", "valueOf", "__defineGetter__", "__defineSetter__",
    "__lookupGetter__", "__lookupSetter__"]

def plainToInstance (dto : Dto) (fields : List (String × Json)) : Instance :=
  (fields.filter fun (key, _) => !SKIPPED_KEYS.contains key).map fun (key, j) =>
    (key, match dto.find? fun p => decide (p.name = key) with
      | some p => p.type j
      | none => .plain j)

/-! ### Validation -/

/-- The error of one property, if one of its checks fails. -/
def Property.error? (p : Property) (object : Instance) : Option ClassValidatorError :=
  let value := object.lookup p.name
  -- `@IsOptional` skips every check of an absent value
  if p.isOptional && !isPresent value then none
  else
    let failed := p.constraints.filter fun c => !c.holds value
    if failed.isEmpty then none
    else some ⟨p.name, some (failed.map fun c => (c.name, c.message))⟩

/-- The errors of the properties that carry no decorator. -/
def whitelistErrors (dto : Dto) (object : Instance) : List ClassValidatorError :=
  (object.filter fun (key, _) => !dto.any fun p => decide (p.name = key)).map fun (key, _) =>
    ⟨key, some [("whitelistValidation", "property " ++ key ++ " should not exist")]⟩

/-- With `whitelist` and `forbidNonWhitelisted` set or with both unset. -/
def validate (forbidNonWhitelisted : Bool) (dto : Dto) (object : Instance) :
    List ClassValidatorError :=
  (if forbidNonWhitelisted then whitelistErrors dto object else []) ++
    dto.filterMap fun p => p.error? object

/-! ### DTOs -/

def MAX_URL_LENGTH : Nat := 8192

def isUrl (options : IsUrlOptions) (message : String) : Constraint where
  name := "isUrl"
  message := message
  holds
    | some (.plain (.str s)) => V.isURL options s
    | _ => false

/-- `validate` of `IsPublicHttpUrlConstraint`, for a string. -/
def isPublic (value : String) : Bool :=
  match P.urlProtocol value with
  | none => false
  | some protocol =>
    if protocol ≠ "http:" ∧ protocol ≠ "https:" then false
    else !hostIsBlockedLiteralIp V (V.urlHostname value)

def isPublicHttpUrl : Constraint where
  name := "isPublicHttpUrl"
  message :=
    "url must be a public http(s) URL (private, loopback, and link-local addresses are not allowed)"
  holds
    | some (.plain (.str s)) => isPublic P V s
    | _ => false

def isDate : Constraint where
  name := "isDate"
  message := "expiresAt must be a Date instance"
  holds
    | some (.date time) => time.isSome
    | _ => false

namespace CreateLinkDto

def url : Property where
  name := "url"
  type := .plain
  isOptional := false
  constraints := [
    isPublicHttpUrl P V,
    isUrl V ⟨["http", "https"], true, MAX_URL_LENGTH⟩ "url must be a valid http(s) URL"]

def expiresAt : Property where
  name := "expiresAt"
  type := toDate V
  isOptional := true
  constraints := [isDate]

end CreateLinkDto

def CreateLinkDto : Dto := [CreateLinkDto.url P V, CreateLinkDto.expiresAt V]

def PickType (dto : Dto) (keys : List String) : Dto := dto.filter fun p => keys.contains p.name

def UpdateLinkDto : Dto := PickType (CreateLinkDto P V) ["url"]

/-! ### The two pipelines -/

namespace ValidationPipe

/-- What is validated in place of a body. Nothing becomes the empty object; an array and a
primitive hold no property of the DTO, but are given its class as their constructor. -/
def entity (dto : Dto) : Json → Instance
  | .null => []
  | .obj fields => plainToInstance dto fields
  | .arr elements =>
    (List.range elements.length).map (fun i => (toString i, .other)) ++ [("constructor", .other)]
  | _ => [("constructor", .other)]

/-- The global pipe, with `validationExceptionFactory`. -/
def transform (dto : Dto) (value : Json) : Except HttpException Instance :=
  match validate true dto (entity dto value) with
  | [] => .ok (entity dto value)
  | errors => .error (.new (.validation errors) 400)

end ValidationPipe

/-- `createShortLinkSchema`: two strings, the second optional; unknown keys are stripped. -/
def parseToolInput : Json → Option (List (String × Json))
  | .obj fields =>
    match fields.lookup "url", fields.lookup "expiresAt" with
    | some (.str url), none => some [("url", .str url)]
    | some (.str url), some (.str expiresAt) =>
      some [("url", .str url), ("expiresAt", .str expiresAt)]
    | _, _ => none
  | _ => none

def validateInput (args : List (String × Json)) : Except HttpException Instance :=
  let dto := plainToInstance (CreateLinkDto P V) args
  -- the tool strips unknown keys itself, so none is refused here
  match validate false (CreateLinkDto P V) dto with
  | [] => .ok dto
  | errors => .error <| UnprocessableEntityException <| .validation <|
      errors.map fun e => ⟨e.property, some (e.constraints.getD [])⟩

/-! ### Requests -/

/-- `dto.url`: the checks let only strings through. -/
def Instance.url (dto : Instance) : String :=
  match dto.lookup "url" with
  | some (.plain (.str s)) => s
  | _ => ""

/-- `dto.expiresAt`: undefined, null or a valid date. -/
def Instance.expiresAt (dto : Instance) : Option (Option Int) :=
  match dto.lookup "expiresAt" with
  | some (.date (some time)) => some (some time)
  | some (.plain .null) => some none
  | _ => none

/-- A request for a destination as it comes in, after its guard has told whose it is. -/
inductive Incoming where
  | postUrls (user : LinksController.RequestUser) (body : Json)
  | patchUrl (userId slug : String) (body : Json)
  | createShortLink (userId : String) (arguments : Json)

inductive Rejection where
  | http (exc : HttpException)
  /-- the MCP server refuses arguments outside the tool's schema -/
  | invalidParams
  deriving DecidableEq, Repr

/-- What the handler of a request is called with. -/
def receive : Incoming → Except Rejection Req
  | .postUrls user body => do
    let dto ← (ValidationPipe.transform (CreateLinkDto P V) body).mapError .http
    pure (.createLink user dto.url dto.expiresAt)
  | .patchUrl userId slug body => do
    let dto ← (ValidationPipe.transform (UpdateLinkDto P V) body).mapError .http
    pure (.updateLink userId slug dto.url)
  | .createShortLink userId arguments =>
    match parseToolInput arguments with
    | none => .error .invalidParams
    | some args => do
      let dto ← (validateInput P V args).mapError .http
      pure (.createShortLink userId dto.url dto.expiresAt)

end Mikrouli
