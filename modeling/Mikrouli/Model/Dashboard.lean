import Mathlib.Data.String.Basic

/-! The page with the links of an account, `pages/DashboardPage.tsx`: the list and its narrowing, and
the correction of a destination in the row of its link.

An event is one turn of the tab's event loop. A save is under way from its confirmation until its
answer, and any other events may come between. -/

namespace Mikrouli.Web

structure PublicLink where
  shortUrl : String
  originalUrl : String
  deriving DecidableEq, Repr

/-- The methods of strings. -/
structure JsString where
  trim : String → String
  toLowerCase : String → String

def JsString.plain : JsString where
  trim s := s
  toLowerCase s := .ofList (s.toList.map Char.toLower)

/-- `s.includes(part)` -/
def includes (s part : String) : Bool := s.toList.tails.any part.toList.isPrefixOf

def extractSlug (shortUrl : String) : String :=
  .ofList ((shortUrl.toList.splitOn '/').getLastD [])

variable (js : JsString)

def narrowLinks (links : List PublicLink) (fragment : String) : List PublicLink :=
  let needle := js.toLowerCase (js.trim fragment)
  if needle = "" then links
  else links.filter fun link =>
    includes (js.toLowerCase (extractSlug link.shortUrl)) needle ||
      includes (js.toLowerCase link.originalUrl) needle

/-! ### The correction -/

inductive Phase where
  | editing
  | saving
  deriving DecidableEq, Repr

structure CorrectionState where
  slug : String
  phase : Phase
  error : Option String
  deriving DecidableEq, Repr

inductive CorrectionAction where
  | «open» (slug : String)
  | saving
  | refused (message : String)
  | close
  deriving DecidableEq, Repr

def correctionReducer (state : Option CorrectionState) : CorrectionAction → Option CorrectionState
  | .open slug => some ⟨slug, .editing, none⟩
  -- whichever correction is open
  | .saving => state.map fun s => { s with phase := .saving }
  | .refused message => state.map fun s => { s with phase := .editing, error := some message }
  | .close => none

/-! ### The page -/

/-- A PATCH that has no answer yet. -/
structure Save where
  slug : String
  url : String
  deriving DecidableEq, Repr

structure DashboardPage where
  links : List PublicLink
  linksLoading : Bool
  linksError : Option String
  pageError : Option String
  fragment : String
  correction : Option CorrectionState
  /-- what the mounted editor has, none without one -/
  draft : Option String
  saves : List Save
  deriving DecidableEq, Repr

namespace DashboardPage

def initial : DashboardPage where
  links := []
  linksLoading := true
  linksError := none
  pageError := none
  fragment := ""
  correction := none
  draft := none
  saves := []

def fetchError (p : DashboardPage) : Option String := p.linksError.or p.pageError

/-- The rows of the set. -/
def rows (p : DashboardPage) : List PublicLink :=
  if p.linksLoading then []
  else if p.fetchError.any (· ≠ "") then []
  else narrowLinks js p.links p.fragment

/-- The row that shows the editor instead of its destination. -/
def editorRow (p : DashboardPage) : Option PublicLink :=
  p.correction.bind fun c => (p.rows js).find? fun link => decide (extractSlug link.shortUrl = c.slug)

/-- The page is rendered. The editor keeps its draft where React keeps the component: in the same
row, unless the rows are mounted anew for another fragment. -/
def render (before after : DashboardPage) : DashboardPage :=
  { after with
    draft := (after.editorRow js).map fun row =>
      if (before.editorRow js).map PublicLink.shortUrl = some row.shortUrl ∧
          js.toLowerCase before.fragment = js.toLowerCase after.fragment then
        before.draft.getD row.originalUrl
      -- an editor opens on the destination as it stands
      else row.originalUrl }

def dispatchCorrection (action : CorrectionAction) (p : DashboardPage) : DashboardPage :=
  p.render js { p with correction := correctionReducer p.correction action }

/-- Whether the controls of the editor work. -/
def enabled (p : DashboardPage) : Bool :=
  (p.editorRow js).isSome && p.correction.any fun c => decide (c.phase = .editing)

inductive Outcome where
  | saved
  | refused (message : String)
  deriving DecidableEq, Repr

inductive Event where
  /-- the query of the links is answered, now or after an invalidation -/
  | list (links : List PublicLink)
  | listFailed (message : String)
  | retireFailed (message : String)
  | narrow (fragment : String)
  | openCorrection (slug : String)
  | edit (draft : String)
  | confirmCorrection
  | cancelCorrection
  /-- a save is answered -/
  | settle (n : Nat) (outcome : Outcome)
  deriving DecidableEq, Repr

/-- `handleConfirmCorrection` after the answer. -/
def onSettled (p : DashboardPage) (n : Nat) : Outcome → DashboardPage
  | .saved => { p with saves := p.saves.eraseIdx n }.dispatchCorrection js .close
  | .refused message =>
    { p with saves := p.saves.eraseIdx n }.dispatchCorrection js (.refused message)

def step (p : DashboardPage) : Event → Option DashboardPage
  | .list links =>
    some (p.render js { p with links := links, linksLoading := false, linksError := none })
  | .listFailed message =>
    some (p.render js { p with linksLoading := false, linksError := some message })
  | .retireFailed message => some (p.render js { p with pageError := some message })
  | .narrow fragment => some (p.render js { p with fragment := fragment })
  | .openCorrection slug =>
    if ∃ link ∈ p.rows js, extractSlug link.shortUrl = slug then
      some (p.dispatchCorrection js (.open slug))
    else none
  | .edit draft => if p.enabled js then some { p with draft := some draft } else none
  | .confirmCorrection =>
    match p.correction, p.draft with
    | some c, some url =>
      if p.enabled js then
        some ({ p with saves := p.saves ++ [Save.mk c.slug url] }.dispatchCorrection js .saving)
      else none
    | _, _ => none
  | .cancelCorrection =>
    if p.enabled js then some (p.dispatchCorrection js .close) else none
  | .settle n outcome => if n < p.saves.length then some (p.onSettled js n outcome) else none

end DashboardPage

end Mikrouli.Web
