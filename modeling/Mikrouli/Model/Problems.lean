import Mikrouli.Model.Data

/-! Errors as clients see them: the problem documents of the REST API
(`common/problem-details.ts`, `common/problem-details.filter.ts`) and the tool errors of the
MCP endpoint (`mcp/mcp-error-mapper.ts`). -/

namespace Mikrouli

/-! ### Exceptions -/

/-- A failed property; the constraints are the entries rule and message, in the order in which
`Object.entries` lists them. -/
structure ClassValidatorError where
  property : String
  constraints : Option (List (String × String))
  deriving DecidableEq, Repr

/-- `getResponse()` of an `HttpException`. -/
inductive Payload where
  | text (message : String)
  /-- an object of neither kind, such as the body Nest makes of a message -/
  | plain
  | problem (typeSlug title detail : String)
  | validation (errors : List ClassValidatorError)
  deriving DecidableEq, Repr

structure HttpException where
  status : Nat
  response : Payload
  /-- the exception is an `UnprocessableEntityException` -/
  unprocessable : Bool
  status_eq : unprocessable = true → status = 422
  deriving DecidableEq, Repr

namespace HttpException

def new (response : Payload) (status : Nat) : HttpException :=
  ⟨status, response, false, fun same => by cases same⟩

end HttpException

def UnprocessableEntityException (response : Payload) : HttpException :=
  ⟨422, response, true, fun _ => rfl⟩

/-- The errors of the services that are HTTP exceptions. -/
def AppError.http? : AppError → Option HttpException
  | .unauthorized => some (.new .plain 401)
  | .forbidden => some (.new .plain 403)
  | .notFound _ => some (.new .plain 404)
  | .conflict _ => some (.new .plain 409)
  | .serviceUnavailable _ => some (.new .plain 503)
  | .problem p => some (.new (.problem p.typeSlug p.title p.detail) p.status)
  | _ => none

/-- What a handler may throw; of a failed query only its kind matters. -/
inductive Exception where
  | http (exc : HttpException)
  | queryFailed
  | other (message : String)
  deriving DecidableEq, Repr

/-! ### Problem documents -/

structure ErrorEntry where
  field : String
  message : String
  rule : String
  deriving DecidableEq, Repr

structure ProblemDetails where
  type : String
  title : String
  status : Nat
  detail : Option String
  errors : Option (List ErrorEntry)
  deriving DecidableEq, Repr

def PROBLEM_BASE_URI : String := "https://mikrou.li/problems"

/-- `STATUS_SLUG_MAP[status] ?? 'unknown'` -/
def statusSlug : Nat → String
  | 400 => "bad-request"
  | 401 => "unauthorized"
  | 403 => "forbidden"
  | 404 => "not-found"
  | 409 => "conflict"
  | 410 => "gone"
  | 422 => "validation"
  | 500 => "internal-server-error"
  | _ => "unknown"

def problemTypeUri (slug : String) : String := PROBLEM_BASE_URI ++ "/" ++ slug

def capitalize : List Char → List Char
  | [] => []
  | c :: word => c.toUpper :: word

/-- The words of a slug, each with a capital. -/
def slugTitle (slug : String) : String :=
  String.ofList (List.intercalate [' '] ((slug.toList.splitOn '-').map capitalize))

def buildProblem (status : Nat) (typeSlug title : String) (detail : Option String) :
    ProblemDetails :=
  ⟨problemTypeUri typeSlug, title, status, detail, none⟩

def buildProblemFromStatus (status : Nat) (detail : Option String) : ProblemDetails :=
  buildProblem status (statusSlug status) (slugTitle (statusSlug status)) detail

/-! ### The REST filter -/

def CONTENT_TYPE_PROBLEM_JSON : String := "application/problem+json"

def expandValidatorError (e : ClassValidatorError) : List ErrorEntry :=
  (e.constraints.getD []).map fun (rule, msg) => ⟨e.property, msg, rule⟩

/-- The filter on `isClassValidatorError` is left out, every element is one. -/
def mapValidationErrors (errors : List ClassValidatorError) : List ErrorEntry :=
  errors.flatMap expandValidatorError

def buildValidationProblem (errors : List ClassValidatorError) : ProblemDetails :=
  { buildProblem 422 "validation" "Unprocessable Entity" none with
    errors := some (mapValidationErrors errors) }

/-- `typeof response === 'string' ? response : undefined` -/
def Payload.text? : Payload → Option String
  | .text message => some message
  | _ => none

def resolveHttpProblem (exc : HttpException) : ProblemDetails :=
  match exc.response with
  | .validation errors => buildValidationProblem errors
  | .problem typeSlug title detail => buildProblem exc.status typeSlug title (some detail)
  | response => buildProblemFromStatus exc.status response.text?

def resolveQueryFailedProblem (isProd : Bool) : ProblemDetails :=
  buildProblemFromStatus 500 (if isProd then none else some "Database query failed")

def resolveGenericProblem (message : String) (isProd : Bool) : ProblemDetails :=
  buildProblemFromStatus 500 (if isProd then none else some message)

structure ProblemResponse where
  status : Nat
  contentType : String
  correlationId : Option String
  body : ProblemDetails
  deriving DecidableEq, Repr

def dispatchProblem (exception : Exception) (correlationId : Option String) (isProd : Bool) :
    ProblemResponse :=
  let send (status : Nat) (body : ProblemDetails) : ProblemResponse :=
    ⟨status, CONTENT_TYPE_PROBLEM_JSON, correlationId.filter (· ≠ ""), body⟩
  match exception with
  | .http exc =>
    let problem := resolveHttpProblem exc
    send problem.status problem
  | .queryFailed => send 500 (resolveQueryFailedProblem isProd)
  | .other message => send 500 (resolveGenericProblem message isProd)

/-! ### MCP tool errors -/

structure TextContent where
  type : String
  text : String
  deriving DecidableEq, Repr

structure CallToolResult where
  isError : Bool
  content : List TextContent
  deriving DecidableEq, Repr

def formatFieldErrors (errors : List ClassValidatorError) : String :=
  let entries := errors.flatMap fun e =>
    (e.constraints.getD []).map fun (rule, msg) => e.property ++ ": " ++ msg ++ " (" ++ rule ++ ")"
  if entries = [] then "" else "; field errors: " ++ String.intercalate ", " entries

/-- `if (detail) text += …` -/
def detailSuffix (detail : Option String) : String :=
  match detail with
  | some detail => if detail = "" then "" else ": " ++ detail
  | none => ""

def mapHttpExceptionToToolError (err : HttpException) : CallToolResult :=
  let problem := buildProblemFromStatus err.status none
  let text := toString err.status ++ " " ++ problem.title
  let suffix :=
    if err.unprocessable then
      match err.response with
      | .validation errors => ": Unprocessable Entity" ++ formatFieldErrors errors
      | response => detailSuffix response.text?
    else detailSuffix err.response.text?
  ⟨true, [⟨"text", text ++ suffix⟩]⟩

end Mikrouli
