import Mikrouli.Lib.QueryCache
import Mathlib.Logic.Function.Basic
import Mathlib.Data.String.Basic

/-! The web app in one browser tab: the auth context, the routes, the query cache its pages share,
and everything that is under way.

An event is one turn of the tab's event loop or one answer of the API. Between a response and the
code that awaits it, and between any two turns of that code, other events may come. -/

namespace Mikrouli.Web

open QueryCache

abbrev Account := String

/-- Whose cookies the browser holds. A session that has lapsed is still that account's: its requests
are refused. -/
abbrev Session := Option Account

inductive Body where
  | null
  | profile (account : Account)
  | content (text : String)
  deriving DecidableEq, Repr

/-! ### Queries -/

inductive QueryKey where
  | user
  | guestConfig
  | links
  | stats (slug : String)
  | apiKeys
  | usage
  deriving DecidableEq, Repr

namespace QueryKey

/-- `staleTime`: 0 for all queries but two, for which it is infinite. -/
def isStale : QueryKey → Bool
  | .user | .guestConfig => false
  | .links | .stats _ | .apiKeys | .usage => true

/-- What may come of a request that was sent in a session. `fetchMe` makes null of a failure, and
without a session the guards refuse the queries about an account. -/
def mayAnswer (sentIn : Session) (body : Body) : QueryKey → Bool
  -- `/auth/me` answers the account of the cookies, and 401 becomes null
  | .user => decide (body = .null) || sentIn.any fun account => decide (body = .profile account)
  | .guestConfig => true
  | .links | .stats _ | .apiKeys | .usage => sentIn.isSome

end QueryKey

/-! ### Routes and pages -/

inductive Route where
  | publicRoute
  | guestRoute
  | protectedRoute
  deriving DecidableEq, Repr

inductive Page where
  | landing
  | login
  | register
  | dashboard
  | stats (slug : String)
  | apiKeys
  | usage
  | connect
  | terms
  | privacy
  | notFound
  deriving DecidableEq, Repr

namespace Page

def route : Page → Route
  | .landing | .login | .register => .guestRoute
  | .dashboard | .stats _ | .apiKeys | .usage => .protectedRoute
  | .connect | .terms | .privacy | .notFound => .publicRoute

/-- The queries a page observes, beside the one of the auth context. -/
def queries : Page → List QueryKey
  | .landing => [.guestConfig]
  | .dashboard => [.links]
  | .stats slug => [.stats slug, .links]
  | .apiKeys => [.apiKeys]
  | .usage => [.usage]
  | .login | .register | .connect | .terms | .privacy | .notFound => []

end Page

/-! ### Mutations -/

inductive Mutation where
  | shorten
  | deleteLink
  | updateLink
  | createKey
  | revokeKey
  deriving DecidableEq, Repr

namespace Mutation

def offeredOn (page : Page) : Mutation → Bool
  | .shorten => decide (page = .landing) || decide (page = .dashboard)
  | .deleteLink | .updateLink => decide (page = .dashboard)
  | .createKey | .revokeKey => decide (page = .apiKeys)

/-- Only links are shortened for guests. -/
def mayAnswer (sentIn : Session) (m : Mutation) : Bool := sentIn.isSome || decide (m = .shorten)

/-- `newLink` of the `ShortenCard`, and `issueOutcome` of the API keys page. -/
def isKept : Mutation → Bool
  | .shorten | .createKey => true
  | .deleteLink | .updateLink | .revokeKey => false

/-- The query it invalidates once it has succeeded. On the landing page `onShortened` stages the
offer to register instead. -/
def invalidates (page : Page) : Mutation → Option QueryKey
  | .shorten => if page = .dashboard then some .links else none
  | .deleteLink | .updateLink => some .links
  | .createKey | .revokeKey => some .apiKeys

end Mutation

/-! ### The tab -/

inductive Pending where
  | mutation (m : Mutation) (sentIn : Session) (page : Page) (mount : Nat)
  | login (account : Account)
  /-- the login has been answered, `onSuccess` has not run -/
  | signedIn (account : Account)
  | logout
  /-- the logout has been answered, `invalidateQueries` has not run -/
  | loggedOut
  /-- the refetches are awaited -/
  | invalidated
  deriving DecidableEq, Repr

structure Tab where
  session : Session
  cache : QueryKey → Query Session Body
  location : Page
  /-- the page that is mounted: none behind the spinner -/
  content : Option Page
  /-- how many times a page has been mounted -/
  mount : Nat
  /-- what the mounted page keeps of a mutation that succeeded -/
  kept : Option (Reply Session Body)
  failures : List (Mutation × Reply Session Body)
  /-- the dashboard asks whether to delete a link -/
  retiring : Bool
  pending : List Pending

namespace Tab

/-- `useAuth().user` -/
def user (t : Tab) : Option Account :=
  match (t.cache .user).data with
  | some ⟨_, .profile account⟩ => some account
  | _ => none

/-- `isLoading` of the user query -/
def bootstrapping (t : Tab) : Bool := (t.cache .user).data.isNone && (t.cache .user).fetching.isSome

/-- `GuestRoute` and `ProtectedRoute`, once the user is known. -/
def redirect (t : Tab) : Page :=
  match t.location.route with
  | .publicRoute => t.location
  | .guestRoute => if t.user.isSome then .dashboard else t.location
  | .protectedRoute => if t.user.isSome then t.location else .login

/-- What the routes mount. -/
def outlet (t : Tab) : Option Page :=
  if t.bootstrapping && decide (t.location.route ≠ .publicRoute) then none else some t.redirect

def observed (content : Option Page) : List QueryKey := (content.map Page.queries).getD []

/-- A page that is mounted starts with no state of its own, and its queries have one observer
more. -/
def mountContent (content : Option Page) (t : Tab) : Tab :=
  { t with
    content := content
    mount := t.mount + 1
    kept := none
    failures := []
    retiring := false
    cache := fun key =>
      if key ∈ observed content then (t.cache key).mount key.isStale t.session else t.cache key }

/-- The tab is rendered. -/
def render (t : Tab) : Tab :=
  let located := if t.outlet.isSome then { t with location := t.redirect } else t
  if t.content = t.outlet then located else located.mountContent t.outlet

def modify (key : QueryKey) (f : Query Session Body → Query Session Body) (t : Tab) : Tab :=
  { t with cache := Function.update t.cache key (f (t.cache key)) }

/-- The auth context observes the user query all the time. -/
def isActive (t : Tab) (key : QueryKey) : Bool :=
  decide (key = .user) || decide (key ∈ observed t.content)

def invalidateQueries (filter : QueryKey → Bool) (t : Tab) : Tab :=
  { t with cache := fun key =>
      if filter key then
        let q := (t.cache key).invalidate
        -- `refetchType` is active: what no page observes is fetched when one does
        if t.isActive key then q.refetch t.session else q
      else t.cache key }

/-- A page load. Nothing outlives it but the cookies, and those may be another account's: the way
through GitHub leaves the app. -/
def load (session : Session) (location : Page) : Tab :=
  render
    { session := session
      cache := fun key => if key = .user then Query.empty.mount false session else .empty
      location := location
      content := none
      mount := 0
      kept := none
      failures := []
      retiring := false
      pending := [] }

/-- The answer reaches the component that sent the mutation, if it is still mounted. -/
def keep (m : Mutation) (mount : Nat) (reply : Reply Session Body) (t : Tab) : Tab :=
  if t.mount = mount then
    { t with
      kept := if m.isKept then some reply else t.kept
      -- `pageError` is never cleared
      failures := t.failures.filter fun f => decide (f.1 ≠ m ∨ m = .deleteLink)
      retiring := t.retiring && decide (m ≠ .deleteLink) }
  else t

/-- A key that could not be revoked leaves no message. -/
def keepFailure (m : Mutation) (mount : Nat) (reply : Reply Session Body) (t : Tab) : Tab :=
  if t.mount = mount ∧ m ≠ .revokeKey then
    { t with
      failures := (m, reply) :: t.failures.filter fun f => decide (f.1 ≠ m)
      retiring := t.retiring && decide (m ≠ .deleteLink) }
  else t

end Tab

/-! ### Events -/

inductive Outcome where
  | success (body : Body)
  | failure (text : String)
  deriving DecidableEq, Repr

inductive Event where
  | load (session : Session) (location : Page)
  | visit (page : Page)
  | answer (key : QueryKey) (body : Body)
  /-- a query has failed for the last time -/
  | fail (key : QueryKey) (text : String)
  /-- a query has failed and is sent again -/
  | retry (key : QueryKey)
  /-- the browser is online again -/
  | refetch (key : QueryKey)
  /-- `gcTime` is over -/
  | collect (key : QueryKey)
  /-- `setRetireCandidate`: a row's link is about to be deleted -/
  | retire
  | cancelRetire
  | mutate (m : Mutation)
  | login (account : Account)
  | logout
  /-- the request of a pending mutation, login or logout is answered -/
  | respond (n : Nat) (outcome : Outcome)
  /-- a pending login or logout goes on -/
  | resume (n : Nat)
  deriving DecidableEq, Repr

namespace Tab

def onMutation (t : Tab) (n : Nat) (m : Mutation) (sentIn : Session) (page : Page) (mount : Nat) :
    Outcome → Option Tab
  | .success body =>
    if m.mayAnswer sentIn then
      some ({ t with pending := t.pending.eraseIdx n }.keep m mount ⟨sentIn, body⟩
        |>.invalidateQueries fun key => decide (m.invalidates page = some key))
    else none
  | .failure text =>
    -- only the API keys page lists its keys again after a failure
    some ({ t with pending := t.pending.eraseIdx n }.keepFailure m mount ⟨sentIn, .content text⟩
      |>.invalidateQueries fun key => decide (m = Mutation.revokeKey ∧ key = QueryKey.apiKeys))

def onResponse (t : Tab) (n : Nat) (outcome : Outcome) : Option Tab :=
  match t.pending[n]?, outcome with
  | some (.mutation m sentIn page mount), outcome => t.onMutation n m sentIn page mount outcome
  -- the cookies are in the response
  | some (.login account), .success _ =>
    some { t with session := some account, pending := t.pending.set n (.signedIn account) }
  | some .logout, .success _ =>
    some { t with session := none, pending := t.pending.set n .loggedOut }
  | some (.login _), .failure _ | some .logout, .failure _ =>
    some { t with pending := t.pending.eraseIdx n }
  | _, _ => none

/-- `login` and `logout` of the auth context, after what they await. -/
def onResume (t : Tab) (n : Nat) : Option Tab :=
  match t.pending[n]? with
  | some (.signedIn account) =>
    -- `setQueryData(['user'], me)`, and the login page navigates
    some (render { t.modify .user (·.setData ⟨some account, .profile account⟩) with
      pending := t.pending.eraseIdx n
      location := .dashboard })
  | some .loggedOut =>
    some { t.invalidateQueries fun _ => true with pending := t.pending.set n .invalidated }
  | some .invalidated =>
    some (render { t.modify .user (·.setData ⟨none, .null⟩) with
      pending := t.pending.eraseIdx n
      location := .login })
  | _ => none

/-- What a query has for a page that looks at its error first. -/
def current (t : Tab) (key : QueryKey) : Option (Reply Session Body) :=
  if (t.cache key).error.isSome then none else (t.cache key).data

/-- What the mounted page renders of its queries. Most render an error in place of the data. -/
def pageData (t : Tab) : List (Reply Session Body) :=
  match t.content with
  | some .landing => (t.cache .guestConfig).data.toList
  | some .dashboard =>
    -- a deletion that failed takes the place of the rows too; an open dialog names its link
    if t.retiring then (t.cache .links).data.toList
    else if t.failures.any fun f => decide (f.1 = .deleteLink) then []
    else (t.current .links).toList
  | some (.stats slug) =>
    match t.current (.stats slug) with
    -- the destination comes from the links, whatever has become of their query
    | some stats => stats :: (t.cache .links).data.toList
    | none => []
  | some .apiKeys => (t.current .apiKeys).toList
  | some .usage => (t.current .usage).toList
  | _ => []

def step (t : Tab) : Event → Option Tab
  | .load session location => some (load session location)
  | .visit page => some (render { t with location := page })
  | .answer key body =>
    match (t.cache key).fetching with
    | some sentIn =>
      if key.mayAnswer sentIn body then some (render (t.modify key (·.succeed ⟨sentIn, body⟩)))
      else none
    | none => none
  | .fail key text =>
    match (t.cache key).fetching with
    | some sentIn =>
      if key ≠ .user then some (t.modify key (·.fail ⟨sentIn, .content text⟩)) else none
    | none => none
  | .retry key =>
    if (t.cache key).fetching.isSome ∧ key ≠ .user then
      some (t.modify key (·.retry t.session))
    else none
  | .refetch key =>
    if t.isActive key ∧ key ≠ .user ∧ (key.isStale ∨ (t.cache key).invalidated) then
      some (t.modify key (·.fetch t.session))
    else none
  | .collect key =>
    -- an entry that is observed or under way is not collected
    if t.isActive key ∨ (t.cache key).fetching.isSome then none
    else some (t.modify key fun _ => .empty)
  | .retire =>
    if t.content = some .dashboard ∧ t.pageData.isEmpty = false then
      some { t with retiring := true }
    else none
  | .cancelRetire => if t.retiring then some { t with retiring := false } else none
  | .mutate m =>
    match t.content with
    | some page =>
      -- a deletion is confirmed in the dialog
      if m.offeredOn page ∧ (m = .deleteLink → t.retiring) then
        some { t with
          pending := t.pending ++ [.mutation m t.session page t.mount]
          -- `handleIssue` puts the new request in place of the key shown before
          kept := if m = .createKey then none else t.kept }
      else none
    | none => none
  | .login account =>
    -- `LoginPage` is the only caller of `login`
    if t.content = some .login then some { t with pending := t.pending ++ [.login account] }
    else none
  | .logout =>
    if t.user.isSome then some { t with pending := t.pending ++ [.logout] } else none
  | .respond n outcome => t.onResponse n outcome
  | .resume n => t.onResume n

/-! ### What is rendered -/

/-- The data on the screen: the profile in the shell, what the page renders of its queries, and what
it keeps. -/
def shownData (t : Tab) : List (Reply Session Body) :=
  (t.cache .user).data.toList ++ t.pageData ++ t.kept.toList

/-- The messages of queries and mutations that failed. Of several, a page may show but one. -/
def shownFailures (t : Tab) : List (Reply Session Body) :=
  ((observed t.content).filterMap fun key => (t.cache key).error) ++ t.failures.map (·.2)

end Tab

end Mikrouli.Web
