import Mikrouli.Model.Problems

/-! Which exceptions the MCP tool reports as the REST filter does. -/

namespace Mikrouli

/-! ### The text of a problem document -/

def ErrorEntry.describe (e : ErrorEntry) : String :=
  e.field ++ ": " ++ e.message ++ " (" ++ e.rule ++ ")"

/-- The field errors of a document, as a tool error lists them. -/
def describeErrors (entries : List ErrorEntry) : String :=
  if entries = [] then ""
  else "; field errors: " ++ String.intercalate ", " (entries.map ErrorEntry.describe)

/-- A problem document as the text of a tool error: the status and the title, then the detail,
then the field errors. -/
def describe (d : ProblemDetails) : String :=
  toString d.status ++ " " ++ d.title ++ (detailSuffix d.detail ++ describeErrors (d.errors.getD []))

/-- A tool error that says what a problem document says. -/
def Reports (result : CallToolResult) (d : ProblemDetails) : Prop :=
  result = ⟨true, [⟨"text", describe d⟩]⟩

instance (result : CallToolResult) (d : ProblemDetails) : Decidable (Reports result d) :=
  inferInstanceAs (Decidable (_ = _))

/-- The payload adds nothing to the status that the tool leaves out: a text, an object of neither
kind, or a problem that has the title of its status and no detail. -/
def Unadorned (exc : HttpException) : Prop :=
  match exc.response with
  | .text _ | .plain => True
  | .problem _ title detail => title = slugTitle (statusSlug exc.status) ∧ detail = ""
  | .validation _ => False

section Texts

theorem statusTitle_mem (status : Nat) : slugTitle (statusSlug status) ∈
    ["Bad Request", "Unauthorized", "Forbidden", "Not Found", "Conflict", "Gone", "Validation",
      "Internal Server Error", "Unknown"] := by
  unfold statusSlug
  split <;> decide

theorem no_colon (status : Nat) : ':' ∉ (slugTitle (statusSlug status)).toList := by
  have all : ∀ title ∈ ["Bad Request", "Unauthorized", "Forbidden", "Not Found", "Conflict", "Gone",
      "Validation", "Internal Server Error", "Unknown"], ':' ∉ title.toList := by decide
  exact all _ (statusTitle_mem status)

/-- No title of a status ends as the text of a validation problem does. -/
theorem getLast_statusTitle (status : Nat) :
    ∃ c, (slugTitle (statusSlug status)).toList.getLast? = some c ∧ c ≠ 'y' ∧ c ≠ ')' := by
  have all : ∀ title ∈ ["Bad Request", "Unauthorized", "Forbidden", "Not Found", "Conflict", "Gone",
      "Validation", "Internal Server Error", "Unknown"],
      ∃ c, title.toList.getLast? = some c ∧ c ≠ 'y' ∧ c ≠ ')' := by
    simp
  exact all _ (statusTitle_mem status)

/-- The two mappers list the same field errors. -/
theorem formatFieldErrors_eq (errors : List ClassValidatorError) :
    formatFieldErrors errors = describeErrors (mapValidationErrors errors) := by
  have entries : (mapValidationErrors errors).map ErrorEntry.describe =
      errors.flatMap fun e => (e.constraints.getD []).map fun entry =>
        e.property ++ ": " ++ entry.2 ++ " (" ++ entry.1 ++ ")" := by
    simp only [mapValidationErrors, expandValidatorError, List.map_flatMap, List.map_map]
    rfl
  simp only [describeErrors, ← List.map_eq_nil_iff (f := ErrorEntry.describe), entries]
  rfl

theorem getLast_append {s t : String} {c : Char} (last : t.toList.getLast? = some c) :
    (s ++ t).toList.getLast? = some c := by
  rw [String.toList_append, List.getLast?_append, last]
  rfl

/-- A list of field errors ends in the bracket that closes the last rule. -/
theorem getLast_intercalate {entries : List ErrorEntry} (given : entries ≠ []) :
    (String.intercalate ", " (entries.map ErrorEntry.describe)).toList.getLast? = some ')' := by
  induction entries with
  | nil => exact absurd rfl given
  | cons e entries ih =>
    cases entries with
    | nil =>
      rw [List.map_singleton, String.intercalate_singleton]
      exact getLast_append rfl
    | cons e' entries =>
      rw [List.map_cons, List.map_cons, String.intercalate_cons_cons]
      exact getLast_append (ih (by simp))

theorem getLast_describeErrors (entries : List ErrorEntry) :
    ("Unprocessable Entity" ++ describeErrors entries).toList.getLast? = some 'y' ∨
      ("Unprocessable Entity" ++ describeErrors entries).toList.getLast? = some ')' := by
  unfold describeErrors
  split
  · exact .inl (by simp)
  next given => exact .inr (getLast_append (getLast_append (getLast_intercalate given)))

end Texts

/-! ### Agreement -/

section Agreement

variable {status : Nat}

theorem reports_iff {text : String} {d : ProblemDetails} :
    Reports ⟨true, [⟨"text", text⟩]⟩ d ↔ text = describe d := by
  simp [Reports]

/-- The text of a status and what a payload that is a text adds to it. -/
def statusText (status : Nat) (detail : Option String) : String :=
  toString status ++ " " ++ slugTitle (statusSlug status) ++ detailSuffix detail

theorem describe_buildProblemFromStatus (detail : Option String) :
    describe (buildProblemFromStatus status detail) = statusText status detail := by
  simp [describe, buildProblemFromStatus, buildProblem, describeErrors, statusText]

/-- Only a validation payload of the exception made for it is treated apart. -/
theorem toolError_eq_statusText {exc : HttpException}
    (other : exc.unprocessable = true → ∀ errors, exc.response ≠ .validation errors) :
    mapHttpExceptionToToolError exc =
      ⟨true, [⟨"text", statusText exc.status exc.response.text?⟩]⟩ := by
  -- both other branches give the same text
  unfold mapHttpExceptionToToolError
  split
  next special =>
    split
    next errors same => exact absurd same (other special errors)
    · rfl
  · rfl

/-- A status title says no more than the title of a problem when the two are the same and there
is no detail. -/
theorem statusTitle_eq_iff {title detail : String} :
    slugTitle (statusSlug status) = title ++ detailSuffix (some detail) ↔
      title = slugTitle (statusSlug status) ∧ detail = "" := by
  by_cases empty : detail = ""
  · subst empty
    simp [detailSuffix, eq_comm]
  · constructor
    · intro same
      -- a detail comes after a colon
      have colon := no_colon status
      rw [same] at colon
      simp [detailSuffix, empty] at colon
    · exact fun holds => absurd holds.2 empty

theorem describe_buildValidationProblem (errors : List ClassValidatorError) :
    describe (buildValidationProblem errors) = toString 422 ++ " " ++
      ("Unprocessable Entity" ++ describeErrors (mapValidationErrors errors)) := by
  change toString 422 ++ " " ++ "Unprocessable Entity" ++
    ("" ++ describeErrors (mapValidationErrors errors)) = _
  rw [String.empty_append, String.append_assoc]

/-- The text of a status alone never reports a validation problem: the two end in different
letters. -/
theorem statusText_ne_validation (errors : List ClassValidatorError) :
    statusText status none ≠ describe (buildValidationProblem errors) := by
  intro same
  -- compare the last letters: the number in front does not matter
  obtain ⟨c, title, entity, bracket⟩ := getLast_statusTitle status
  have last : (statusText status none).toList.getLast? = some c := by
    have bare : statusText status none = toString status ++ " " ++ slugTitle (statusSlug status) :=
      String.append_empty
    rw [bare]
    exact getLast_append title
  rw [same, describe_buildValidationProblem] at last
  rcases getLast_describeErrors (mapValidationErrors errors) with plain | listed
  · rw [getLast_append plain] at last
    exact entity (Option.some.inj last).symm
  · rw [getLast_append listed] at last
    exact bracket (Option.some.inj last).symm

/-- The tool names another title in front of the one of the document. -/
theorem toolError_of_validation (errors : List ClassValidatorError) :
    ¬Reports (mapHttpExceptionToToolError (UnprocessableEntityException (.validation errors)))
      (buildValidationProblem errors) := by
  have title : slugTitle (statusSlug 422) = "Validation" := by decide
  have mapped : mapHttpExceptionToToolError (UnprocessableEntityException (.validation errors)) =
      ⟨true, [⟨"text", toString 422 ++ " " ++ slugTitle (statusSlug 422) ++
        (": Unprocessable Entity" ++ formatFieldErrors errors)⟩]⟩ := rfl
  rw [mapped, reports_iff, describe_buildValidationProblem, title, String.append_assoc,
    String.append_right_inj]
  intro same
  have letters := congrArg String.toList same
  simp at letters

end Agreement

/-- The tool error reports the problem document that the filter sends for the same exception just
when the payload adds nothing to the status. -/
theorem toolError_reports_iff (exc : HttpException) (correlationId : Option String)
    (isProd : Bool) :
    Reports (mapHttpExceptionToToolError exc)
      (dispatchProblem (.http exc) correlationId isProd).body ↔ Unadorned exc := by
  obtain ⟨status, response, unprocessable, status_eq⟩ := exc
  cases response with
  | text message =>
    rw [toolError_eq_statusText (by simp), reports_iff]
    exact iff_of_true (describe_buildProblemFromStatus _).symm trivial
  | plain =>
    rw [toolError_eq_statusText (by simp), reports_iff]
    exact iff_of_true (describe_buildProblemFromStatus _).symm trivial
  | problem typeSlug title detail =>
    rw [toolError_eq_statusText (by simp), reports_iff]
    have document : describe (buildProblem status typeSlug title (some detail)) =
        toString status ++ " " ++ (title ++ detailSuffix (some detail)) := by
      simp [describe, buildProblem, describeErrors, String.append_assoc]
    have text : statusText status none =
        toString status ++ " " ++ slugTitle (statusSlug status) := String.append_empty
    change statusText status none = describe (buildProblem status typeSlug title (some detail)) ↔ _
    rw [text, document, String.append_right_inj]
    exact statusTitle_eq_iff
  | validation errors =>
    -- a validation problem is never reported, whichever class throws it
    refine iff_of_false ?_ id
    cases unprocessable with
    | true =>
      cases status_eq rfl
      exact toolError_of_validation errors
    | false =>
      rw [toolError_eq_statusText (by simp), reports_iff]
      exact statusText_ne_validation errors

/-- Over the monthly limit, a browser reads "Monthly link limit reached" and how to go on, an agent
"429 Unknown". -/
theorem quota_error_misreported :
    ¬∀ (exc : HttpException) (correlationId : Option String) (isProd : Bool),
      Reports (mapHttpExceptionToToolError exc)
        (dispatchProblem (.http exc) correlationId isProd).body := by
  intro reports
  exact absurd (reports (MonthlyLinkLimitExceededError.http?.get rfl) none false)
    (by decide +kernel)

end Mikrouli
