import Mikrouli.Lib.Events
import Mikrouli.Model.WebApp

/-! Whose data the web app shows.

The query cache outlives the session: its keys do not name the account, and a logout marks the
entries stale but leaves their data, which the next page that observes them shows until the refetch
is answered. While no login succeeds in a tab with something left of another account that a page can
show, all that the tab can show is of one account. -/

namespace Mikrouli.Web

open QueryCache

variable {x y account : Account} {t t' : Tab}

/-! ### Own data -/

/-- Whoever is signed in, the data on the screen answer requests of that account's session. -/
def Tab.ShowsOwnData (t : Tab) : Prop :=
  ∀ account, t.user = some account → ∀ r ∈ t.shownData, r.source = some account

/-- Sent in this account's session or in none. -/
def Sent (x : Account) (s : Session) : Prop := s = none ∨ s = some x

/-- Messages of failures may also answer requests that were sent without a session. -/
def Tab.ShowsOwnFailures (t : Tab) : Prop :=
  ∀ account, t.user = some account → ∀ r ∈ t.shownFailures, Sent account r.source

def Tab.Steps (t t' : Tab) : Prop := ∃ e, t.step e = some t'

/-- Whoever observes the query renders its error in place of its data. -/
def QueryKey.hides : QueryKey → Bool
  | .stats _ | .apiKeys | .usage => true
  | .user | .guestConfig | .links => false

/-- Whose data a query may be left with where an account signs in. -/
def Left (x : Account) (key : QueryKey) (failed : Bool) (s : Session) : Prop :=
  (failed && key.hides) = true ∨ Sent x s

/-- Nothing of another account is left: no user on the screen, no login about to go on, no message
or unanswered request in the query cache, and no data but those behind an error. -/
structure Tab.FreeFor (t : Tab) (account : Account) : Prop where
  user : ∀ a, t.user = some a → a = account
  signedIn : ∀ a, Pending.signedIn a ∈ t.pending → a = account
  cache : ∀ key, key ≠ .guestConfig → (t.cache key).From (Left account key) (Sent account)

/-- A login succeeds only where nothing of another account is left, and the dashboard shortens no
link once its session has ended. -/
def Tab.Meets (t : Tab) : Event → Prop
  | .respond n (.success _) =>
    ∀ account, t.pending[n]? = some (.login account) → t.FreeFor account
  | .mutate .shorten => t.content = some .dashboard → t.session ≠ none
  | _ => True

/-- A step that meets the condition. -/
def Tab.CleanSteps (t t' : Tab) : Prop := ∃ e, t.Meets e ∧ t.step e = some t'

/-! ### The tab of one account -/

/-- Whose data a query may have, unless they are behind an error. What is known of the user may also
come from no session. -/
def Owns (x : Account) (key : QueryKey) (failed : Bool) (s : Session) : Prop :=
  (failed && key.hides) = true ∨ (if key = .user then Sent x s else s = some x)

theorem Owns.fails {key : QueryKey} (failed : Bool) (s : Session) (owns : Owns x key failed s) :
    Owns x key true s := by
  rcases owns with hidden | owns
  · simp only [Bool.and_eq_true] at hidden
    exact .inl (by simp [hidden.2])
  · exact .inr owns

theorem owns_user {failed : Bool} {s : Session} : Owns x .user failed s ↔ Sent x s := by
  simp [Owns, QueryKey.hides]

theorem owns_links {failed : Bool} {s : Session} : Owns x .links failed s ↔ s = some x := by
  simp [Owns, QueryKey.hides]

theorem owns_shown {key : QueryKey} {s : Session} (other : key ≠ .user) :
    Owns x key false s ↔ s = some x := by
  simp [Owns, other]

structure OwnCache (x : Account) (cache : QueryKey → Query Session Body) : Prop where
  queries : ∀ key, key ≠ .guestConfig → (cache key).From (Owns x key) (Sent x)
  profile : ∀ s a, (cache .user).data = some ⟨s, .profile a⟩ → s = some a

/-- What the mounted page keeps and waits for is its account's. -/
def OwnPage (x : Account) (t : Tab) : Prop :=
  (∀ r, t.kept = some r → r.source = some x) ∧ (∀ f ∈ t.failures, Sent x f.2.source) ∧
    ∀ m s page, .mutation m s page t.mount ∈ t.pending → Sent x s ∧ (m = .shorten → s = some x)

/-- The mounted page keeps nothing and waits for nothing. -/
def Blank (t : Tab) : Prop :=
  t.kept = none ∧ t.failures = [] ∧ ∀ m s page, .mutation m s page t.mount ∉ t.pending

theorem Blank.ownPage (blank : Blank t) : OwnPage x t := by
  obtain ⟨kept, failures, mutations⟩ := blank
  refine ⟨?_, ?_, fun m s page awaited => absurd awaited (mutations m s page)⟩
  · simp [kept]
  · simp [failures]

/-- Everything but what a guest's page keeps is this account's. -/
structure Own (x : Account) (t : Tab) : Prop where
  session : Sent x t.session
  cache : OwnCache x t.cache
  signedIn : ∀ a, .signedIn a ∈ t.pending → a = x
  fresh : ∀ m s page n, .mutation m s page n ∈ t.pending → n ≤ t.mount
  page : (∀ page, t.content = some page → page.route ≠ .guestRoute) → OwnPage x t
  blank : (∀ page, t.content = some page → page.route = .publicRoute) → Blank t

/-- The routes have seen to it that the page fits the user. -/
def Tab.Settled (t : Tab) : Prop := ∀ page, t.content = some page →
  (page.route = .guestRoute → t.user = none) ∧ (page.route = .protectedRoute → t.user ≠ none)

/-! ### The cache -/

section Cache

variable {cache : QueryKey → Query Session Body} {key : QueryKey} {q : Query Session Body}

theorem OwnCache.update (own : OwnCache x cache)
    (owned : key ≠ .guestConfig → q.From (Owns x key) (Sent x))
    (profile : key = .user → ∀ s a, q.data = some ⟨s, .profile a⟩ → s = some a) :
    OwnCache x (Function.update cache key q) := by
  constructor
  case queries =>
    intro key' private'
    by_cases same : key' = key
    · subst same
      rw [Function.update_self]
      exact owned private'
    · rw [Function.update_of_ne same]
      exact own.queries key' private'
  case profile =>
    by_cases user : key = .user
    · subst user
      rw [Function.update_self]
      exact profile rfl
    · rw [Function.update_of_ne (Ne.symm user)]
      exact own.profile

/-- Operations that keep the data and know no other source. -/
theorem OwnCache.map {f : QueryKey → Query Session Body → Query Session Body}
    (own : OwnCache x cache)
    (owned : ∀ key {q}, q.From (Owns x key) (Sent x) → (f key q).From (Owns x key) (Sent x))
    (data : ∀ key q, (f key q).data = q.data) : OwnCache x fun key => f key (cache key) := by
  constructor
  case queries => exact fun key private' => owned key (own.queries key private')
  case profile =>
    rw [data]
    exact own.profile

end Cache

/-- The user of the tab is the account whose profile was answered. -/
theorem source_of_user (user : t.user = some account) :
    ∃ s, (t.cache .user).data = some ⟨s, .profile account⟩ := by
  unfold Tab.user at user
  split at user
  next s a data =>
    cases user
    exact ⟨s, data⟩
  · cases user

theorem Own.eq_of_user (own : Own x t) (user : t.user = some account) : account = x := by
  obtain ⟨s, data⟩ := source_of_user user
  -- the profile names its session, and that session is x's or none
  have source := own.cache.profile s account data
  have sent := owns_user.mp ((own.cache.queries .user (by decide)).data _ data)
  rcases sent with none | some
  · cases source.symm.trans none
  · exact Option.some.inj (source.symm.trans some)

theorem user_congr (data : (t'.cache .user).data = (t.cache .user).data) : t'.user = t.user := by
  unfold Tab.user
  rw [data]

theorem settled_congr (settled : t.Settled) (content : t'.content = t.content)
    (data : (t'.cache .user).data = (t.cache .user).data) : t'.Settled := by
  unfold Tab.Settled
  rw [content, user_congr data]
  exact settled

/-! ### Rendering -/

theorem Own.relocate (own : Own x t) (location : Page) : Own x { t with location := location } := by
  constructor
  case session => exact own.session
  case cache => exact own.cache
  case signedIn => exact own.signedIn
  case fresh => exact own.fresh
  case page => exact own.page
  case blank => exact own.blank

/-- A page that has just been mounted keeps nothing. -/
theorem blank_mountContent {content : Option Page}
    (fresh : ∀ m s page n, .mutation m s page n ∈ t.pending → n ≤ t.mount) :
    Blank (t.mountContent content) := by
  refine ⟨rfl, rfl, fun m s page awaited => ?_⟩
  -- a mutation that waits was sent from an earlier mount
  have old : t.mount + 1 ≤ t.mount := fresh m s page _ awaited
  omega

theorem Own.mountContent (own : Own x t) (content : Option Page) : Own x (t.mountContent content) := by
  constructor
  case session => exact own.session
  case cache =>
    refine own.cache.map (f := fun key q =>
      if key ∈ Tab.observed content then q.mount key.isStale t.session else q)
      (fun key q owned => ?_) fun key q => ?_
    · split
      · exact owned.mount own.session
      · exact owned
    · split
      · exact Query.data_mount
      · rfl
  case signedIn => exact own.signedIn
  case fresh => exact fun m s page n awaited => Nat.le_succ_of_le (own.fresh m s page n awaited)
  case page => exact fun _ => (blank_mountContent own.fresh).ownPage
  case blank => exact fun _ => blank_mountContent own.fresh

theorem Own.render (own : Own x t) : Own x t.render := by
  have located : Own x (if t.outlet.isSome then { t with location := t.redirect } else t) := by
    split
    · exact own.relocate _
    · exact own
  unfold Tab.render
  dsimp only
  split
  · exact located
  · exact located.mountContent _

theorem content_render : t.render.content = t.outlet := by
  unfold Tab.render
  dsimp only
  split
  next same => split <;> exact same
  next => rfl

theorem data_mountContent {content : Option Page} {key : QueryKey} :
    ((t.mountContent content).cache key).data = (t.cache key).data := by
  unfold Tab.mountContent
  dsimp only
  split
  · exact Query.data_mount
  · rfl

theorem data_render {key : QueryKey} : (t.render.cache key).data = (t.cache key).data := by
  unfold Tab.render
  dsimp only
  split
  · split <;> rfl
  · rw [data_mountContent]
    split <;> rfl

/-- The routes only let through a page that fits the user. -/
theorem redirect_fits : (t.redirect.route = .guestRoute → t.user = none) ∧
    (t.redirect.route = .protectedRoute → t.user ≠ none) := by
  unfold Tab.redirect
  cases route : t.location.route with
  | publicRoute => simp [route]
  | guestRoute =>
    cases user : t.user with
    | none => simp [route]
    | some account => simp [show Page.dashboard.route = .protectedRoute from rfl]
  | protectedRoute =>
    cases user : t.user with
    | none => simp [show Page.login.route = .guestRoute from rfl]
    | some account => simp [route]

theorem settled_render : t.render.Settled := by
  intro page content
  rw [content_render, Tab.outlet] at content
  rw [user_congr data_render]
  split at content
  · cases content
  · cases content
    exact redirect_fits

/-! ### Steps -/

theorem Own.load {session : Session} {location : Page} (sent : Sent x session) :
    Own x (Tab.load session location) := by
  apply Own.render
  constructor
  case session => exact sent
  case cache =>
    constructor
    case queries =>
      intro key private'
      dsimp only
      split
      · exact Query.From.empty.mount sent
      · exact Query.From.empty
    case profile => exact fun s a data => nomatch data
  case signedIn => exact fun a member => nomatch member
  case fresh => exact fun m s page n member => nomatch member
  case page => exact fun _ => ⟨nofun, nofun, fun m s page member => nomatch member⟩
  case blank => exact fun _ => ⟨rfl, rfl, fun m s page member => nomatch member⟩

theorem Own.modify {key : QueryKey} {f : Query Session Body → Query Session Body} (own : Own x t)
    (owned : ∀ q : Query Session Body, key ≠ .guestConfig → q.From (Owns x key) (Sent x) →
      (f q).From (Owns x key) (Sent x))
    (profile : key = .user → ∀ s a, (f (t.cache key)).data = some ⟨s, .profile a⟩ → s = some a) :
    Own x (t.modify key f) := by
  constructor
  case session => exact own.session
  case cache =>
    exact own.cache.update (fun private' => owned _ private' (own.cache.queries key private')) profile
  case signedIn => exact own.signedIn
  case fresh => exact own.fresh
  case page => exact own.page
  case blank => exact own.blank

theorem data_modify_of_ne {key : QueryKey} {f : Query Session Body → Query Session Body}
    (other : key ≠ .user) : ((t.modify key f).cache .user).data = (t.cache .user).data := by
  simp [Tab.modify, Function.update_of_ne (Ne.symm other)]

theorem data_invalidateQueries {filter : QueryKey → Bool} {key : QueryKey} :
    ((t.invalidateQueries filter).cache key).data = (t.cache key).data := by
  unfold Tab.invalidateQueries
  dsimp only
  split
  · split
    · exact Query.data_refetch
    · rfl
  · rfl

theorem Own.invalidateQueries (own : Own x t) (filter : QueryKey → Bool) :
    Own x (t.invalidateQueries filter) := by
  constructor
  case session => exact own.session
  case cache =>
    constructor
    case queries =>
      intro key private'
      have owned := own.cache.queries key private'
      unfold Tab.invalidateQueries
      dsimp only
      split
      · split
        · exact owned.invalidate.refetch own.session
        · exact owned.invalidate
      · exact owned
    case profile =>
      rw [data_invalidateQueries]
      exact own.cache.profile
  case signedIn => exact own.signedIn
  case fresh => exact own.fresh
  case page => exact own.page
  case blank => exact own.blank

/-- What is pending may be answered or go on, as long as no login of another account does. -/
theorem Own.repend {pending : List Pending} (own : Own x t)
    (signedIn : ∀ a, .signedIn a ∈ pending → a = x)
    (mutations : ∀ m s page n, .mutation m s page n ∈ pending → .mutation m s page n ∈ t.pending) :
    Own x { t with pending := pending } := by
  constructor
  case session => exact own.session
  case cache => exact own.cache
  case signedIn => exact signedIn
  case fresh => exact fun m s page n member => own.fresh m s page n (mutations m s page n member)
  case page =>
    intro inside
    obtain ⟨kept, failures, awaited⟩ := own.page inside
    exact ⟨kept, failures, fun m s p member => awaited m s p (mutations m s p _ member)⟩
  case blank =>
    intro outside
    obtain ⟨kept, failures, awaited⟩ := own.blank outside
    exact ⟨kept, failures, fun m s p member => awaited m s p (mutations m s p _ member)⟩

theorem Own.erase (own : Own x t) (n : Nat) : Own x { t with pending := t.pending.eraseIdx n } :=
  own.repend (fun a member => own.signedIn a (List.mem_of_mem_eraseIdx member))
    fun _ _ _ _ member => List.mem_of_mem_eraseIdx member

theorem Own.set (own : Own x t) (n : Nat) {p : Pending} (signedIn : ∀ a, p = .signedIn a → a = x)
    (other : ∀ m s page k, p ≠ .mutation m s page k) :
    Own x { t with pending := t.pending.set n p } := by
  refine own.repend (fun a member => ?_) fun m s page k member => ?_
  · rcases List.mem_or_eq_of_mem_set member with old | new
    · exact own.signedIn a old
    · exact signedIn a new.symm
  · rcases List.mem_or_eq_of_mem_set member with old | new
    · exact old
    · exact absurd new.symm (other m s page k)

theorem Own.resession {session : Session} (own : Own x t) (sent : Sent x session) :
    Own x { t with session := session } := by
  constructor
  case session => exact sent
  case cache => exact own.cache
  case signedIn => exact own.signedIn
  case fresh => exact own.fresh
  case page => exact own.page
  case blank => exact own.blank

theorem Own.retire (own : Own x t) (retiring : Bool) : Own x { t with retiring := retiring } := by
  constructor
  case session => exact own.session
  case cache => exact own.cache
  case signedIn => exact own.signedIn
  case fresh => exact own.fresh
  case page => exact own.page
  case blank => exact own.blank

/-- The tab may be another account's, if nothing of the former one is left in it. -/
theorem Own.change (own : Own x t) (settled : t.Settled) (free : t.FreeFor y) :
    Own y { t with session := some y } := by
  constructor
  case session => exact .inr rfl
  case cache =>
    constructor
    case queries =>
      intro key private'
      have free := free.cache key private'
      refine ⟨fun r data => ?_, free.error, free.fetching⟩
      rcases free.data r data with hidden | sent
      · exact .inl hidden
      by_cases user : key = .user
      · subst user
        exact owns_user.mpr sent
      -- data that are not of the user come from a session
      rcases (own.cache.queries key private').data r data with hidden | owned
      · exact .inl hidden
      rw [if_neg user] at owned
      rcases sent with none | some
      · cases owned.symm.trans none
      · exact .inr (by rw [if_neg user]; exact some)
    case profile => exact own.cache.profile
  case signedIn => exact free.signedIn
  case fresh => exact own.fresh
  case page =>
    intro inside
    -- on a page for users the account cannot change; elsewhere the page keeps nothing
    by_cases protected' : ∃ page, t.content = some page ∧ page.route = .protectedRoute
    · obtain ⟨page, content, route⟩ := protected'
      obtain ⟨a, user⟩ := Option.ne_none_iff_exists'.mp ((settled page content).2 route)
      have same : x = y := (own.eq_of_user user).symm.trans (free.user a user)
      subst same
      exact own.page inside
    · have outside : ∀ page, t.content = some page → page.route = .publicRoute := by
        intro page content
        cases route : page.route with
        | publicRoute => rfl
        | guestRoute => exact absurd route (inside page content)
        | protectedRoute => exact absurd ⟨page, content, route⟩ protected'
      exact (own.blank outside).ownPage
  case blank => exact own.blank

/-! ### Answers to mutations -/

section Mutations

variable {m : Mutation} {s : Session} {page : Page} {n k : Nat} {reply : Reply Session Body}

theorem Own.keep (own : Own x t)
    (mine : (∀ page, t.content = some page → page.route ≠ .guestRoute) → t.mount = k →
      reply.source = some x)
    (elsewhere : (∀ page, t.content = some page → page.route = .publicRoute) → t.mount ≠ k) :
    Own x (t.keep m k reply) := by
  unfold Tab.keep
  split
  next here =>
    constructor
    case session => exact own.session
    case cache => exact own.cache
    case signedIn => exact own.signedIn
    case fresh => exact own.fresh
    case page =>
      intro inside
      obtain ⟨kept, failures, mutations⟩ := own.page inside
      refine ⟨fun r keeps => ?_, fun f member => failures f (List.mem_filter.mp member).1, mutations⟩
      dsimp only at keeps
      split at keeps
      · cases keeps
        exact mine inside here
      · exact kept r keeps
    case blank => exact fun outside => absurd here (elsewhere outside)
  · exact own

theorem Own.keepFailure (own : Own x t)
    (mine : (∀ page, t.content = some page → page.route ≠ .guestRoute) → t.mount = k →
      Sent x reply.source)
    (elsewhere : (∀ page, t.content = some page → page.route = .publicRoute) → t.mount ≠ k) :
    Own x (t.keepFailure m k reply) := by
  unfold Tab.keepFailure
  split
  next here =>
    constructor
    case session => exact own.session
    case cache => exact own.cache
    case signedIn => exact own.signedIn
    case fresh => exact own.fresh
    case page =>
      intro inside
      obtain ⟨kept, failures, mutations⟩ := own.page inside
      refine ⟨kept, fun f member => ?_, mutations⟩
      rcases List.mem_cons.mp member with rfl | old
      · exact mine inside here.1
      · exact failures f (List.mem_filter.mp old).1
    case blank => exact fun outside => absurd here.1 (elsewhere outside)
  · exact own

/-- What a mutation was sent for and answered with is the account's own. -/
theorem Own.onMutation {outcome : Outcome} (own : Own x t)
    (awaited : t.pending[n]? = some (.mutation m s page k))
    (step : t.onMutation n m s page k outcome = some t') :
    Own x t' ∧ t'.content = t.content ∧ (t'.cache .user).data = (t.cache .user).data := by
  have member : .mutation m s page k ∈ t.pending := List.mem_of_getElem? awaited
  have mine : (∀ page, t.content = some page → page.route ≠ .guestRoute) → t.mount = k →
      Sent x s ∧ (m = .shorten → s = some x) := by
    rintro inside rfl
    exact (own.page inside).2.2 m s page member
  have elsewhere : (∀ page, t.content = some page → page.route = .publicRoute) → t.mount ≠ k := by
    rintro outside rfl
    exact (own.blank outside).2.2 m s page member
  -- the answer is kept by the mount that sent the mutation, if at all
  cases outcome with
  | success body =>
    simp only [Tab.onMutation] at step
    split at step
    next accepted =>
      cases step
      refine ⟨((own.erase n).keep (fun inside here => ?_) elsewhere).invalidateQueries _, ?_, ?_⟩
      · obtain ⟨sent, guest⟩ := mine inside here
        -- whoever has no session can only shorten
        rcases sent with rfl | own'
        · exact guest (by simpa [Mutation.mayAnswer] using accepted)
        · exact own'
      · unfold Tab.keep
        split <;> rfl
      · rw [data_invalidateQueries]
        unfold Tab.keep
        split <;> rfl
    · cases step
  | failure text =>
    cases step
    refine ⟨((own.erase n).keepFailure (fun inside here => ?_) elsewhere).invalidateQueries _, ?_, ?_⟩
    · exact (mine inside here).1
    · unfold Tab.keepFailure
      split <;> rfl
    · rw [data_invalidateQueries]
      unfold Tab.keepFailure
      split <;> rfl

end Mutations

/-! ### Runs -/

/-- Without a session, nothing is answered about an account. -/
theorem owns_of_mayAnswer {key : QueryKey} {s : Session} {body : Body} (sent : Sent x s)
    (private' : key ≠ .guestConfig) (accepted : key.mayAnswer s body = true) :
    Owns x key false s := by
  cases key with
  | user => exact owns_user.mpr sent
  | guestConfig => cases private' rfl
  | links | stats slug | apiKeys | usage =>
    rcases sent with rfl | own
    · cases accepted
    · exact (owns_shown (by simp)).mpr own

theorem Own.mutate {m : Mutation} {page : Page} (own : Own x t) (content : t.content = some page)
    (offered : m.offeredOn page = true) (meets : t.Meets (.mutate m)) (kept : Option (Reply Session Body))
    (keeps : kept = none ∨ kept = t.kept) :
    Own x { t with
      pending := t.pending ++ [.mutation m t.session page t.mount]
      kept := kept } := by
  constructor
  case session => exact own.session
  case cache => exact own.cache
  case signedIn => exact fun a member => own.signedIn a (by simpa using member)
  case fresh =>
    intro m' s page' n member
    rcases List.mem_append.mp member with old | new
    · exact own.fresh m' s page' n old
    · cases List.mem_singleton.mp new
      exact Nat.le_refl _
  case page =>
    intro inside
    obtain ⟨kept', failures, mutations⟩ := own.page inside
    refine ⟨fun r keeps' => ?_, failures, fun m' s page' member => ?_⟩
    · rcases keeps with rfl | rfl
      · cases keeps'
      · exact kept' r keeps'
    · rcases List.mem_append.mp member with old | new
      · exact mutations m' s page' old
      cases List.mem_singleton.mp new
      refine ⟨own.session, ?_⟩
      rintro rfl
      -- on the landing page it is a guest's, on the dashboard there is a session
      have dashboard : page = .dashboard := by
        rcases (by simpa [Mutation.offeredOn] using offered) with rfl | rfl
        · exact absurd rfl (inside .landing content)
        · rfl
      subst dashboard
      exact own.session.resolve_left (meets content)
  case blank =>
    intro outside
    have route := outside page content
    -- no public page offers a mutation
    cases m <;> simp [Mutation.offeredOn] at offered
    · rcases offered with rfl | rfl <;> cases route
    all_goals
      subst offered
      cases route

/-- Only a login makes the tab another account's. -/
theorem Own.onResponse {n : Nat} {outcome : Outcome} (own : Own x t) (settled : t.Settled)
    (meets : t.Meets (.respond n outcome)) (step : t.onResponse n outcome = some t') :
    (∃ y, Own y t') ∧ t'.Settled := by
  simp only [Tab.onResponse] at step
  split at step
  next m sentIn page mount awaited =>
    obtain ⟨own', content, data⟩ := own.onMutation awaited step
    exact ⟨⟨x, own'⟩, settled_congr settled content data⟩
  next account body awaited =>
    cases step
    -- the cookies of the new account: nothing of another one is left by the condition
    have changed := own.change settled (meets account awaited)
    refine ⟨⟨account, changed.set n (fun a same => ?_) nofun⟩, settled⟩
    exact (Pending.signedIn.inj same).symm
  next body awaited =>
    cases step
    exact ⟨⟨x, (own.resession (.inl rfl)).set n nofun nofun⟩, settled⟩
  next account text awaited =>
    cases step
    exact ⟨⟨x, own.erase n⟩, settled⟩
  next text awaited =>
    cases step
    exact ⟨⟨x, own.erase n⟩, settled⟩
  next => cases step

theorem Own.onResume {n : Nat} (own : Own x t) (settled : t.Settled)
    (step : t.onResume n = some t') : Own x t' ∧ t'.Settled := by
  simp only [Tab.onResume] at step
  split at step
  next account awaited =>
    cases step
    -- `setQueryData` of the login that has been answered
    have mine : account = x := own.signedIn account (List.mem_of_getElem? awaited)
    subst mine
    have known : Own account (t.modify .user (·.setData ⟨some account, .profile account⟩)) := by
      refine own.modify (fun q _ owned => owned.setData (owns_user.mpr (.inr rfl))) ?_
      rintro - s a ⟨⟩
      rfl
    exact ⟨((known.erase n).relocate .dashboard).render, settled_render⟩
  next awaited =>
    cases step
    have data : ((t.invalidateQueries fun _ => true).cache .user).data = (t.cache .user).data :=
      data_invalidateQueries
    exact ⟨(own.invalidateQueries _).set n nofun nofun, settled_congr settled rfl data⟩
  next awaited =>
    cases step
    have known : Own x (t.modify .user (·.setData ⟨none, .null⟩)) := by
      refine own.modify (fun q _ owned => owned.setData (owns_user.mpr (.inl rfl))) ?_
      rintro - s a ⟨⟩
    exact ⟨((known.erase n).relocate .login).render, settled_render⟩
  next => cases step

theorem Own.step {e : Event} (own : Own x t) (settled : t.Settled) (meets : t.Meets e)
    (step : t.step e = some t') : (∃ y, Own y t') ∧ t'.Settled := by
  cases e with
  | load session location =>
    cases step
    refine ⟨?_, settled_render⟩
    cases session with
    | none => exact ⟨x, Own.load (.inl rfl)⟩
    | some account => exact ⟨account, Own.load (.inr rfl)⟩
  | visit page =>
    cases step
    exact ⟨⟨x, (own.relocate page).render⟩, settled_render⟩
  | answer key body =>
    simp only [Tab.step] at step
    split at step
    next sentIn waits =>
      split at step
      next accepted =>
        cases step
        refine ⟨⟨x, Own.render (own.modify (fun q private' owned => owned.succeed ?_) ?_)⟩,
          settled_render⟩
        -- what is answered was sent in this account's session or in none
        · have sent := (own.cache.queries key private').fetching sentIn waits
          exact owns_of_mayAnswer sent private' accepted
        · rintro rfl s a data
          cases data
          cases sentIn with
          | none => simp [QueryKey.mayAnswer] at accepted
          | some account => simpa [QueryKey.mayAnswer, eq_comm] using accepted
      · cases step
    · cases step
  | fail key text =>
    simp only [Tab.step] at step
    split at step
    next sentIn waits =>
      split at step
      next other =>
        cases step
        refine ⟨⟨x, own.modify (fun q private' owned => owned.fail Owns.fails ?_) fun user => absurd user other⟩,
          settled_congr settled rfl (data_modify_of_ne other)⟩
        exact (own.cache.queries key private').fetching sentIn waits
      · cases step
    · cases step
  | retry key =>
    simp only [Tab.step] at step
    split at step
    next other =>
      cases step
      refine ⟨⟨x, own.modify (fun q _ owned => owned.retry own.session) fun user => absurd user other.2⟩,
        settled_congr settled rfl (data_modify_of_ne other.2)⟩
    · cases step
  | refetch key =>
    simp only [Tab.step] at step
    split at step
    next other =>
      cases step
      refine ⟨⟨x, own.modify (fun q _ owned => owned.fetch own.session)
        fun user => absurd user other.2.1⟩, settled_congr settled rfl (data_modify_of_ne other.2.1)⟩
    · cases step
  | collect key =>
    simp only [Tab.step] at step
    split at step
    · cases step
    next idle =>
      cases step
      have other : key ≠ .user := by
        rintro rfl
        -- the auth context observes the user query all the time
        exact idle (.inl (by simp [Tab.isActive]))
      exact ⟨⟨x, own.modify (fun q _ _ => Query.From.empty) fun user => absurd user other⟩,
        settled_congr settled rfl (data_modify_of_ne other)⟩
  | retire =>
    simp only [Tab.step] at step
    split at step
    · cases step
      exact ⟨⟨x, own.retire true⟩, settled⟩
    · cases step
  | cancelRetire =>
    simp only [Tab.step] at step
    split at step
    · cases step
      exact ⟨⟨x, own.retire false⟩, settled⟩
    · cases step
  | mutate m =>
    simp only [Tab.step] at step
    split at step
    next page content =>
      split at step
      next offered =>
        cases step
        refine ⟨⟨x, own.mutate content offered.1 meets _ ?_⟩, settled⟩
        split
        · exact .inl rfl
        · exact .inr rfl
      · cases step
    · cases step
  | login account =>
    simp only [Tab.step] at step
    split at step
    · cases step
      refine ⟨⟨x, own.repend (fun a member => ?_) fun m s page n member => ?_⟩, settled⟩
      · simpa using own.signedIn a (by simpa using member)
      · simpa using member
    · cases step
  | logout =>
    simp only [Tab.step] at step
    split at step
    · cases step
      refine ⟨⟨x, own.repend (fun a member => ?_) fun m s page n member => ?_⟩, settled⟩
      · simpa using own.signedIn a (by simpa using member)
      · simpa using member
    · cases step
  | respond n outcome => exact own.onResponse settled meets step
  | resume n =>
    obtain ⟨own', settled'⟩ := own.onResume settled step
    exact ⟨⟨x, own'⟩, settled'⟩

/-- The pages for users only observe queries about an account. -/
theorem private_of_observed {content : Option Page} {key : QueryKey}
    (inside : ∀ page, content = some page → page.route ≠ .guestRoute)
    (observed : key ∈ Tab.observed content) : key ≠ .guestConfig := by
  cases content with
  | none => cases observed
  | some page =>
    have shown := inside page rfl
    rintro rfl
    cases page with
    | landing | login | register => exact absurd rfl shown
    | _ => simp [Tab.observed, Page.queries] at observed

theorem inside_of_user (settled : t.Settled) (user : t.user = some account) (page : Page)
    (content : t.content = some page) : page.route ≠ .guestRoute := by
  intro guest
  rw [(settled page content).1 guest] at user
  cases user

section Shown

variable {r : Reply Session Body}

theorem Own.source_of_current {key : QueryKey} (own : Own x t) (other : key ≠ .user)
    (private' : key ≠ .guestConfig) (current : t.current key = some r) : r.source = some x := by
  unfold Tab.current at current
  split at current
  · cases current
  next shown =>
    have owns := (own.cache.queries key private').data r current
    rw [Bool.not_eq_true] at shown
    rw [shown] at owns
    exact (owns_shown other).mp owns

/-- What a page for users renders of its queries is the account's own. -/
theorem Own.source_of_pageData (own : Own x t)
    (inside : ∀ page, t.content = some page → page.route ≠ .guestRoute) (shown : r ∈ t.pageData) :
    r.source = some x := by
  have links : (t.cache .links).data = some r → r.source = some x := fun data =>
    owns_links.mp ((own.cache.queries .links (by simp)).data r data)
  have current : ∀ key, key ≠ .user → key ≠ .guestConfig → r ∈ (t.current key).toList →
      r.source = some x := fun key other private' member =>
    own.source_of_current other private' (Option.mem_toList.mp member)
  unfold Tab.pageData at shown
  split at shown
  next content => exact absurd rfl (inside .landing content)
  next =>
    split at shown
    · exact links (Option.mem_toList.mp shown)
    split at shown
    · cases shown
    · exact current .links (by simp) (by simp) shown
  next slug _ =>
    split at shown
    next stats found =>
      rcases List.mem_cons.mp shown with rfl | member
      · exact own.source_of_current (by simp) (by simp) found
      · exact links (Option.mem_toList.mp member)
    · cases shown
  next => exact current .apiKeys (by simp) (by simp) shown
  next => exact current .usage (by simp) (by simp) shown
  next => cases shown

end Shown

/-- All that is shown of the tab of one account is of that account. -/
theorem Own.showsOwnData (own : Own x t) (settled : t.Settled) : t.ShowsOwnData := by
  intro account user r shown
  obtain rfl := own.eq_of_user user
  have inside := inside_of_user settled user
  simp only [Tab.shownData, List.mem_append, Option.mem_toList] at shown
  -- the shell, the page's queries, and what the page keeps
  rcases shown with (profile | rendered) | kept
  · obtain ⟨s, data⟩ := source_of_user user
    cases profile.symm.trans data
    exact own.cache.profile s account data
  · exact own.source_of_pageData inside rendered
  · exact (own.page inside).1 r kept

theorem Own.showsOwnFailures (own : Own x t) (settled : t.Settled) : t.ShowsOwnFailures := by
  intro account user r shown
  obtain rfl := own.eq_of_user user
  have inside := inside_of_user settled user
  simp only [Tab.shownFailures, List.mem_append, List.mem_filterMap, List.mem_map] at shown
  rcases shown with ⟨key, observed, error⟩ | ⟨f, member, rfl⟩
  · exact (own.cache.queries key (private_of_observed inside observed)).error r error
  · exact (own.page inside).2.1 f member

theorem own_of_run {session : Session} {location : Page}
    (run : Relation.ReflTransGen Tab.CleanSteps (Tab.load session location) t) :
    (∃ x, Own x t) ∧ t.Settled := by
  -- after a page load the tab is that of the session the load came with
  induction run with
  | refl =>
    refine ⟨?_, settled_render⟩
    cases session with
    | none => exact ⟨"", Own.load (.inl rfl)⟩
    | some account => exact ⟨account, Own.load (.inr rfl)⟩
  | tail _ clean ih =>
    obtain ⟨⟨x, own⟩, settled⟩ := ih
    obtain ⟨e, meets, step⟩ := clean
    exact own.step settled meets step

/-- In whatever order the user acts and answers arrive, while every step meets the condition the
tab shows no account what another one was answered. -/
theorem shows_own_of_clean_run {session : Session} {location : Page}
    (run : Relation.ReflTransGen Tab.CleanSteps (Tab.load session location) t) :
    t.ShowsOwnData ∧ t.ShowsOwnFailures := by
  obtain ⟨⟨x, own⟩, settled⟩ := own_of_run run
  exact ⟨own.showsOwnData settled, own.showsOwnFailures settled⟩

/-- Alice, whose cookies the browser has, sees her links. -/
theorem shows_own_of_visit : ∃ t : Tab, t.user = some "alice" ∧ t.shownData.length = 2 ∧
    t.ShowsOwnData ∧ t.ShowsOwnFailures := by
  have run : Relation.ReflTransGen Tab.CleanSteps (Tab.load (some "alice") .dashboard) _ :=
    .tail (.single ⟨.answer .user (.profile "alice"), trivial, rfl⟩)
      ⟨.answer .links (.content "links of alice"), trivial, rfl⟩
  exact ⟨_, by decide, by decide, shows_own_of_clean_run run⟩

/-! ### What is left of another account can be seen -/

theorem user_of_data (data : (t.cache .user).data = some ⟨some account, .profile account⟩) :
    t.user = some account := by
  unfold Tab.user
  rw [data]

/-- Whoever is signed in sees the pages for users. -/
theorem redirect_visit {page : Page} (user : t.user = some account)
    (route : page.route = .protectedRoute) :
    (Tab.outlet { t with location := page }) = some page ∧
      Tab.redirect { t with location := page } = page := by
  obtain ⟨s, data⟩ := source_of_user user
  have known : Tab.bootstrapping { t with location := page } = false := by
    simp [Tab.bootstrapping, data]
  have same : Tab.user { t with location := page } = some account := user
  have redirect : Tab.redirect { t with location := page } = page := by
    simp [Tab.redirect, route, same]
  exact ⟨by simp [Tab.outlet, known, redirect], redirect⟩

theorem content_visit {page : Page} (user : t.user = some account)
    (route : page.route = .protectedRoute) :
    (Tab.render { t with location := page }).content = some page := by
  rw [content_render, (redirect_visit user route).1]

theorem location_visit {page : Page} (user : t.user = some account)
    (route : page.route = .protectedRoute) :
    (Tab.render { t with location := page }).location = page := by
  obtain ⟨outlet, redirect⟩ := redirect_visit user route
  unfold Tab.render
  dsimp only
  rw [outlet, redirect]
  split <;> rfl

theorem error_render {key : QueryKey}
    (stays : (t.cache key).data.isSome = true ∨ (t.cache key).error = none) :
    (t.render.cache key).error = (t.cache key).error := by
  have mounted : ∀ (t₁ : Tab) (content : Option Page), t₁.cache = t.cache →
      ((t₁.mountContent content).cache key).error = (t.cache key).error := by
    intro t₁ content same
    unfold Tab.mountContent
    dsimp only
    rw [same]
    split
    · exact Query.error_mount stays
    · rfl
  unfold Tab.render
  dsimp only
  split
  · split <;> rfl
  · exact mounted _ _ (by split <;> rfl)

theorem cache_render {page : Page} {key : QueryKey} (outlet : t.outlet = some page)
    (unobserved : key ∉ page.queries) : t.render.cache key = t.cache key := by
  have other : key ∉ Tab.observed t.outlet := by simpa [outlet, Tab.observed] using unobserved
  unfold Tab.render
  dsimp only
  split
  · split <;> rfl
  · simp only [Tab.mountContent, if_neg other]
    split <;> rfl

theorem cache_render_of_observed {page : Page} {key : QueryKey} (outlet : t.outlet = some page)
    (moved : t.content ≠ some page) (observed : key ∈ page.queries) :
    t.render.cache key = (t.cache key).mount key.isStale t.session := by
  have queried : key ∈ Tab.observed (some page) := observed
  unfold Tab.render
  dsimp only
  rw [outlet, if_neg moved]
  simp only [Tab.mountContent, if_pos queried]
  rfl

/-- A page that takes the place of another one has no failures of its own, and no dialog. -/
theorem fresh_render (moved : t.content ≠ t.outlet) :
    t.render.failures = [] ∧ t.render.retiring = false := by
  unfold Tab.render
  dsimp only
  rw [if_neg moved]
  exact ⟨rfl, rfl⟩

/-- After a login in a tab the new user can go to a page without queries. Whatever the cache had
before is still there. -/
structure SignedIn (t t' : Tab) (account : Account) : Prop where
  steps : Relation.ReflTransGen Tab.Steps t t'
  user : t'.user = some account
  session : t'.session = some account
  content : t'.content = some .connect
  data : ∀ key, key ≠ .user → (t'.cache key).data = (t.cache key).data
  error : ∀ key, key ≠ .user → (t.cache key).data.isSome = true ∨ (t.cache key).error = none →
    (t'.cache key).error = (t.cache key).error
  cache : ∀ key, key ≠ .user → key ≠ .links → t'.cache key = t.cache key

theorem exists_signedIn {n : Nat} (awaited : t.pending[n]? = some (.login account)) :
    ∃ t', SignedIn t t' account := by
  -- the login is answered and goes on
  let responded : Tab :=
    { t with session := some account, pending := t.pending.set n (.signedIn account) }
  let known : Tab :=
    { responded.modify .user (·.setData ⟨some account, .profile account⟩) with
      pending := responded.pending.eraseIdx n
      location := .dashboard }
  have responds : t.step (.respond n (.success .null)) = some responded := by
    simp [Tab.step, Tab.onResponse, awaited, responded]
  have resumes : responded.step (.resume n) = some known.render := by
    have waits : responded.pending[n]? = some (.signedIn account) := by
      obtain ⟨bound, -⟩ := List.getElem?_eq_some_iff.mp awaited
      simp [responded, bound]
    simp [Tab.step, Tab.onResume, waits, known]
  have user : known.user = some account := user_of_data (by simp [known, Tab.modify, Query.setData])
  have signed : known.render.user = some account := (user_congr data_render).trans user
  have kept : ∀ key, key ≠ .user → known.cache key = t.cache key := by
    intro key other
    simp [known, responded, Tab.modify, Function.update_of_ne other]
  have dashboard : known.outlet = some .dashboard := by
    obtain ⟨s, data⟩ := source_of_user user
    have ready : known.bootstrapping = false := by simp [Tab.bootstrapping, data]
    have route : Tab.redirect known = .dashboard := by
      simp [Tab.redirect, user, show known.location = .dashboard from rfl,
        show Page.dashboard.route = .protectedRoute from rfl]
    simp [Tab.outlet, ready, route]
  have outside : (Tab.outlet { known.render with location := .connect }) = some .connect := by
    simp [Tab.outlet, Tab.redirect, show Page.connect.route = .publicRoute from rfl]
  have session : ∀ t₁ : Tab, t₁.render.session = t₁.session := by
    intro t₁
    unfold Tab.render Tab.mountContent
    dsimp only
    split <;> split <;> rfl
  refine ⟨Tab.render { known.render with location := .connect }, ?_⟩
  constructor
  case steps => exact .head ⟨_, responds⟩ (.head ⟨_, resumes⟩ (.single ⟨.visit .connect, rfl⟩))
  case user => exact (user_congr data_render).trans signed
  case session => exact (session _).trans (session known)
  case content => rw [content_render, outside]
  case data =>
    intro key other
    rw [data_render, data_render, kept key other]
  case error =>
    intro key other stays
    have stays' := stays
    rw [← kept key other] at stays'
    rw [error_render (by rw [data_render]; simpa [error_render stays'] using stays'),
      error_render stays', kept key other]
  case cache =>
    intro key other unlinked
    rw [cache_render outside (by simp [Page.queries]),
      cache_render dashboard (by simpa [Page.queries] using unlinked), kept key other]

/-- Data that another account's session has left in the cache, with no error beside them, are shown
to whoever signs in and visits the page that lists them: no refetch has been answered yet. -/
theorem exists_leak_of_left_data {n : Nat} {page : Page} {key : QueryKey} {r : Reply Session Body}
    (awaited : t.pending[n]? = some (.login account)) (route : page.route = .protectedRoute)
    (lists : page.queries.head? = some key) (data : (t.cache key).data = some r)
    (fine : (t.cache key).error = none) (other : r.source ≠ some account) :
    ∃ t', Relation.ReflTransGen Tab.Steps t t' ∧ ¬t'.ShowsOwnData := by
  have private' : key ≠ .user := by
    rintro rfl
    cases page <;> simp [Page.queries] at lists
  obtain ⟨t', signed⟩ := exists_signedIn awaited
  have content := content_visit signed.user route
  have moved : t'.content ≠ Tab.outlet { t' with location := page } := by
    rw [← content_render, content, signed.content]
    rintro ⟨⟩
    cases route
  have fresh := fresh_render (t := { t' with location := page }) moved
  have left : (Tab.render { t' with location := page }).current key = some r := by
    have clear : (t'.cache key).error = none :=
      (signed.error key private' (.inr fine)).trans fine
    have shown : ((Tab.render { t' with location := page }).cache key).error = none :=
      (error_render (t := { t' with location := page }) (.inr clear)).trans clear
    rw [Tab.current, shown, data_render, signed.data key private', data]
    rfl
  refine ⟨Tab.render { t' with location := page }, signed.steps.tail ⟨.visit page, rfl⟩, fun law => ?_⟩
  have rendered : r ∈ (Tab.render { t' with location := page }).pageData := by
    cases page with
    | dashboard | stats slug | apiKeys | usage =>
      cases lists
      simp [Tab.pageData, content, fresh.1, fresh.2, left]
    | _ => cases route
  refine other (law account ((user_congr data_render).trans signed.user) r ?_)
  simp [Tab.shownData, rendered]

/-- What it has left of its links is shown with the statistics of any slug, even where the links
have failed since. -/
theorem exists_leak_of_left_links {n : Nat} {slug : String} {r : Reply Session Body}
    (awaited : t.pending[n]? = some (.login account)) (data : (t.cache .links).data = some r)
    (unvisited : t.cache (.stats slug) = .empty) (other : r.source ≠ some account) :
    ∃ t', Relation.ReflTransGen Tab.Steps t t' ∧ ¬t'.ShowsOwnData := by
  obtain ⟨t', signed⟩ := exists_signedIn awaited
  have route : (Page.stats slug).route = .protectedRoute := rfl
  obtain ⟨outlet, -⟩ := redirect_visit signed.user route
  -- the page is visited, and its statistics are answered before its links
  let visited : Tab := Tab.render { t' with location := .stats slug }
  let answered : Tab := visited.modify (.stats slug) (·.succeed ⟨some account, .content ""⟩)
  have fetching : (visited.cache (.stats slug)).fetching = some (some account) := by
    have mounted : visited.cache (.stats slug) =
        (t'.cache (.stats slug)).mount true t'.session :=
      cache_render_of_observed outlet (by simp [signed.content]) (by simp [Page.queries])
    rw [mounted, signed.cache _ (by simp) (by simp), unvisited, signed.session]
    rfl
  have answers : visited.step (.answer (.stats slug) (.content "")) = some answered.render := by
    simp [Tab.step, fetching, QueryKey.mayAnswer, answered]
  have user : answered.user = some account :=
    (user_congr (data_modify_of_ne (by simp))).trans ((user_congr data_render).trans signed.user)
  have content : answered.render.content = some (.stats slug) := by
    have located : answered.location = .stats slug := location_visit signed.user route
    have same : { answered with location := .stats slug } = answered := by rw [← located]
    have shown := content_visit user route
    rwa [same] at shown
  have statistics : answered.render.current (.stats slug) = some ⟨some account, .content ""⟩ := by
    have succeeded : answered.cache (.stats slug) =
        (visited.cache (.stats slug)).succeed ⟨some account, .content ""⟩ := by
      simp [answered, Tab.modify]
    have clear : (answered.cache (.stats slug)).error = none := by rw [succeeded]; rfl
    rw [Tab.current, error_render (.inr clear), clear, data_render, succeeded]
    rfl
  have left : (answered.render.cache .links).data = some r := by
    rw [data_render]
    simp only [answered, Tab.modify, Function.update_of_ne (show QueryKey.links ≠ .stats slug by simp)]
    rw [data_render, signed.data _ (by simp), data]
  refine ⟨answered.render, (signed.steps.tail ⟨.visit (.stats slug), rfl⟩).tail ⟨_, answers⟩,
    fun law => other (law account ((user_congr data_render).trans user) r ?_)⟩
  simp [Tab.shownData, Tab.pageData, content, statistics, left]

/-! ### A shared computer -/

theorem steps_of_foldlM {es : List Event} (played : es.foldlM Tab.step t = some t') :
    Relation.ReflTransGen Tab.Steps t t' :=
  Events.run_of_foldlM (fun _ e _ taken => ⟨e, taken⟩) played

/-- Alice signs in, sees her links and signs out from a page without queries, and Bob signs in. -/
def sharedComputer : List Event :=
  [.answer .user .null, .login "alice", .respond 0 (.success (.profile "alice")), .resume 0,
    .answer .links (.content "links of alice"), .visit .connect, .logout,
    .respond 0 (.success .null), .resume 0, .answer .user .null, .resume 0,
    .login "bob", .respond 0 (.success (.profile "bob")), .resume 0]

/-- On Bob's dashboard stand the links of Alice, until his own are answered. -/
theorem links_of_former_account : ¬∀ (session : Session) (location : Page) (t : Tab),
    Relation.ReflTransGen Tab.Steps (Tab.load session location) t → t.ShowsOwnData := by
  intro law
  have played : ((sharedComputer.foldlM Tab.step (Tab.load none .login)).any fun t =>
      decide (t.user = some "bob" ∧ ∃ r ∈ t.shownData, r.source ≠ some "bob")) = true := by decide
  obtain ⟨t, run, leaks⟩ := (Option.any_eq_true _ _).mp played
  obtain ⟨user, r, shown, other⟩ := of_decide_eq_true leaks
  exact other (law none .login t (steps_of_foldlM run) "bob" user r shown)

end Mikrouli.Web
