import Mikrouli.Lib.CheckThenAct
import Mikrouli.Properties.KeySteps
import Mikrouli.Properties.LinkSteps

/-! The monthly quotas under concurrency: each creator counts, compares and inserts later. -/

namespace Mikrouli

open Async Store

variable {P : Platform}

/-! ### One quota -/

/-- What distinguishes the two quotas of a user: the rows that count, the limit, and which
threads have counted below it and may still insert. -/
structure Gate (P : Platform) where
  userId : String
  month : Int × Int
  limit : Int
  limitOf : User → Int
  rows : World → Nat
  pending : List (Event (mikrouli P)) → Bool
  silent : pending [] = false

namespace Gate

variable (g : Gate P) (k start : Nat)

/-- The clock is in the month, and the user's limit is the one the gate speaks of. -/
structure Side (w : World) : Prop where
  month : getMonthBounds w.now = g.month
  limit : ∀ v ∈ w.users.rows, v.row.id = g.userId → g.limitOf v.row = g.limit

/-- The rows and the pending threads have got where they are by a run of the abstract gate. -/
structure Inv (σ : Shared (mikrouli P)) : Prop where
  run : CheckThenAct.Run g.limit k (start, 0) (g.rows σ.world, (σ.census g.pending).card)
  side : g.Side σ.world

def contract : Contract (mikrouli P) :=
  .ofOwn (g.Inv k start) (fun _ _ _ => True) fun _ _ _ _ => True

variable {g k start} {σ : Shared (mikrouli P)} {i : Nat} {c : Cmd} {ch : Choice} {w : World}
  {res : Except AppError c.Res}

theorem rely_called (j : Nat) (other : j ≠ i) :
    (g.contract k start).Rely j σ (σ.called i c res w) :=
  Shared.called_own_of_ne other σ c res w

theorem Side.step {w w' : World} (side : g.Side w) (returned : exec P i c ch w = some (res, w'))
    (accounts : c.writesAccounts = false) : g.Side w' := by
  have frame := exec_frame returned
  constructor
  · rw [frame.now]
    exact side.month
  · rw [frame.users accounts]
    exact side.limit

/-- A command that neither counts for the user nor adds a row. -/
theorem Inv.ease (inv : g.Inv k start σ) (returned : exec P i c ch σ.world = some (res, w))
    (accounts : c.writesAccounts = false) (fewer : g.rows w ≤ g.rows σ.world)
    (idle : g.pending (.call c res :: σ.own i) = true → g.pending (σ.own i) = true) :
    g.Inv k start (σ.called i c res w) :=
  ⟨inv.run.ease fewer (Shared.card_census_called_le g.silent idle),
    inv.side.step returned accounts⟩

/-- A count below the limit, with room for one more pending thread. -/
theorem Inv.check (inv : g.Inv k start σ) (returned : exec P i c ch σ.world = some (res, w))
    (accounts : c.writesAccounts = false) (same : g.rows w = g.rows σ.world)
    (below : (g.rows σ.world : Int) < g.limit) (room : (σ.census g.pending).card < k) :
    g.Inv k start (σ.called i c res w) := by
  refine ⟨?_, inv.side.step returned accounts⟩
  rw [Shared.called_world, same]
  exact inv.run.check below room (Shared.card_census_called_le_succ g.silent)

/-- A pending thread inserts a row and is pending no more. -/
theorem Inv.act (inv : g.Inv k start σ) (returned : exec P i c ch σ.world = some (res, w))
    (accounts : c.writesAccounts = false) (one : g.rows w = g.rows σ.world + 1)
    (held : g.pending (σ.own i) = true) (leaves : g.pending (.call c res :: σ.own i) = false) :
    g.Inv k start (σ.called i c res w) := by
  refine ⟨?_, inv.side.step returned accounts⟩
  rw [Shared.called_world, one]
  exact inv.run.act (Shared.card_census_called_leave g.silent held leaves)

/-- The command leaves the gate's invariant alone, whoever issues it. -/
def Keeps (g : Gate P) (k start : Nat) (c : Cmd) : Prop :=
  ∀ σ i ch res w, g.Inv k start σ → exec P i c ch σ.world = some (res, w) →
    g.Inv k start (σ.called i c res w)

variable {G : Guard (mikrouli P)}

theorem safe_of_keeps {α : Type} {p : Prog α} {Q : Except AppError α → Shared (mikrouli P) → Prop}
    (only : Prog.Only (g.Keeps k start) p) (post : ∀ r σ, Q r σ) :
    Safe (g.contract k start) G i Q p σ := by
  refine Safe.of_only (K := fun _ => True) only (fun _ _ _ _ => trivial) ?_ (fun r σ _ => post r σ)
    trivial
  intro c σ keeps inv _
  refine ⟨trivial, fun ch res w returned _ => ⟨?_, ?_, trivial⟩⟩
  · exact keeps σ i ch res w inv returned
  · exact rely_called

/-- One such command of a program: what follows may use the thread's own events. -/
theorem safe_keeps {Q : Except AppError c.Res → Shared (mikrouli P) → Prop}
    (keeps : g.Keeps k start c)
    (next : ∀ σ' ch res w, σ'.own i = σ.own i → g.Inv k start σ' →
      exec P i c ch σ'.world = some (res, w) → Q res (σ'.called i c res w)) :
    Safe (g.contract k start) G i Q (await c) σ := by
  apply Safe.perform
  intro σ' rely inv
  refine ⟨trivial, fun ch res w returned _ => ⟨keeps σ' i ch res w inv returned, ?_, ?_⟩⟩
  · exact rely_called
  · exact next σ' ch res w rely inv returned

/-- A count is made over the gate's month: the clock that is read for it stands there. -/
theorem safe_month {α : Type} (count : Int × Int → Prog α)
    {Q : Except AppError α → Shared (mikrouli P) → Prop} {K : List (Event (mikrouli P)) → Prop}
    (keeps : g.Keeps k start .dateNow) (read : ∀ now, K (.call .dateNow (.ok now) :: σ.own i))
    (counts : ∀ σ' : Shared (mikrouli P), K (σ'.own i) →
      Safe (g.contract k start) G i Q (count g.month) σ') :
    Safe (g.contract k start) G i Q (await .dateNow >>= fun now => count (getMonthBounds now)) σ := by
  apply Safe.bind
  apply safe_keeps keeps
  intro σ₁ ch res w₁ own inv returned
  obtain ⟨rfl, rfl⟩ := exec_dateNow returned
  have bounds : getMonthBounds σ₁.world.now = g.month := inv.side.month
  change Safe _ G i _ (count (getMonthBounds σ₁.world.now)) _
  rw [bounds]
  apply counts
  rw [Shared.called_own_self, own]
  exact read _

/-- Where the limit is read for the user, it is the gate's. -/
theorem safe_limit (keeps : g.Keeps k start (.findUserById g.userId)) :
    Safe (g.contract k start) G i
      (fun r σ' => ∀ l : Int, r = .ok l → l = g.limit ∧
        ∃ user, σ'.own i = .call (.findUserById g.userId) (.ok (some user)) :: σ.own i)
      (do
        let user ← UsageService.findOneOrFail g.userId
        pure (g.limitOf user) : Prog Int) σ := by
  apply Safe.bind
  apply Safe.bind
  apply safe_keeps keeps
  intro σ₁ ch res w₁ own inv returned
  obtain ⟨rfl, ⟨-, rfl⟩ | rfl⟩ := exec_findUserById returned
  · rintro l ⟨⟩
  cases found : σ₁.world.userById i g.userId with
  | none => rintro l ⟨⟩
  | some user =>
    rintro l ⟨⟩
    obtain ⟨v, member, rfl, -, same⟩ := World.userById_eq_some found
    refine ⟨inv.side.limit v member same, v.row, ?_⟩
    rw [Shared.called_own_self, own]

/-- There is room for another pending thread wherever a count lets one through. -/
def Room (g : Gate P) (k : Nat) (σ : Shared (mikrouli P)) : Prop :=
  (g.rows σ.world : Int) < g.limit → (σ.census g.pending).card < k

end Gate

/-! ### The events that matter -/

/-- The read of the limit that follows the count did not find the user. -/
def limitMissed : Event (mikrouli P) → Bool
  | .call (.findUserById _) (.ok (some _)) => false
  | .call (.findUserById _) _ => true
  | _ => false

def countedLinks (userId : String) (month : Int × Int) (limit : Int) :
    Event (mikrouli P) → Bool
  | .call (.countLinks u a b) (.ok (n : Nat)) =>
    decide (u = userId ∧ (a, b) = month ∧ (n : Int) < limit)
  | _ => false

/-- The thread counted links below the limit and can still insert one: nothing but slug
collisions has come of its attempts, and one is left. -/
def pendingLinks (userId : String) (month : Int × Int) (limit : Int)
    (es : List (Event (mikrouli P))) : Bool :=
  es.any (countedLinks userId month limit) && !es.any limitMissed &&
    (es.filterMap linkAttempt).all isCollision &&
    decide ((es.filterMap linkAttempt).length < MAX_SLUG_RETRIES)

def countedKeys (userId : String) (month : Int × Int) (limit : Int) : Event (mikrouli P) → Bool
  | .call (.countKeys u a b) (.ok (n : Nat)) =>
    decide (u = userId ∧ (a, b) = month ∧ (n : Int) < limit)
  | _ => false

def keyAttempt : Event (mikrouli P) → Bool
  | .call (.saveApiKey _ _ _ _) _ => true
  | _ => false

/-- The thread counted keys below the limit and has not come to its insert yet. -/
def pendingKeys (userId : String) (month : Int × Int) (limit : Int)
    (es : List (Event (mikrouli P))) : Bool :=
  es.any (countedKeys userId month limit) && !es.any limitMissed && !es.any keyAttempt

def linkRows (userId : String) (month : Int × Int) (w : World) : Nat :=
  w.links.count fun l => l.createdBy userId month.1 month.2

def linkGate (P : Platform) (userId : String) (month : Int × Int) (limit : Int) : Gate P where
  userId := userId
  month := month
  limit := limit
  limitOf := UsageService.resolveLinkLimit P
  rows := linkRows userId month
  pending := pendingLinks userId month limit
  silent := rfl

def keyGate (P : Platform) (userId : String) (month : Int × Int) (limit : Int) : Gate P where
  userId := userId
  month := month
  limit := limit
  limitOf := UsageService.resolveKeyLimit P
  rows := keyRows userId month
  pending := pendingKeys userId month limit
  silent := rfl

section Events

variable {userId : String} {month : Int × Int} {limit : Int} {e : Event (mikrouli P)}
  {es : List (Event (mikrouli P))}

/-- Only a count makes a thread pending. -/
theorem pendingLinks_of_cons (uncounted : countedLinks userId month limit e = false)
    (pending : pendingLinks userId month limit (e :: es) = true) :
    pendingLinks userId month limit es = true := by
  simp only [pendingLinks, List.any_cons, uncounted, Bool.false_or, Bool.and_eq_true,
    Bool.not_eq_true', Bool.or_eq_false_iff, decide_eq_true_eq] at pending ⊢
  obtain ⟨⟨⟨counted, -, found⟩, collisions⟩, few⟩ := pending
  cases attempt : linkAttempt e with
  | none =>
    simp only [List.filterMap_cons, attempt] at collisions few
    exact ⟨⟨⟨counted, found⟩, collisions⟩, few⟩
  | some r =>
    simp only [List.filterMap_cons, attempt, List.all_cons, List.length_cons,
      Bool.and_eq_true] at collisions few
    exact ⟨⟨⟨counted, found⟩, collisions.2⟩, by omega⟩

theorem pendingKeys_of_cons (uncounted : countedKeys userId month limit e = false)
    (pending : pendingKeys userId month limit (e :: es) = true) :
    pendingKeys userId month limit es = true := by
  simp only [pendingKeys, List.any_cons, uncounted, Bool.false_or, Bool.and_eq_true,
    Bool.not_eq_true', Bool.or_eq_false_iff] at pending ⊢
  exact ⟨⟨pending.1.1, pending.1.2.2⟩, pending.2.2⟩

/-- The limit was not missed, and nothing has been tried yet. -/
structure Undecided (tried : Event (mikrouli P) → Bool) (es : List (Event (mikrouli P))) :
    Prop where
  found : es.any limitMissed = false
  untried : es.any tried = false

theorem Undecided.cons {tried : Event (mikrouli P) → Bool} (undecided : Undecided tried es)
    (found : limitMissed e = false) (attempt : tried e = false) : Undecided tried (e :: es) := by
  constructor
  · rw [List.any_cons, found, undecided.found]
    rfl
  · rw [List.any_cons, attempt, undecided.untried]
    rfl

def triedLink (e : Event (mikrouli P)) : Bool := (linkAttempt e).isSome

theorem Undecided.filterMap_linkAttempt (undecided : Undecided triedLink es) :
    es.filterMap linkAttempt = [] := by
  rw [List.filterMap_eq_nil_iff]
  intro e member
  have untried := List.any_eq_false.mp undecided.untried e member
  simpa [triedLink] using untried

end Events

/-! ### The runs -/

/-- Anything but account requests and, for the user's own id, the unmetered guest path. -/
def QuotaRequest (userId : String) (r : Req) : Prop :=
  r.onAccounts = false ∧ ∀ user url expiresAt, r = .createLink user url expiresAt →
    user.id = userId → user.isGuest = false

/-- The clock stays within one month. -/
def creatorRuns (P : Platform) (userId : String) : Guard (mikrouli P)
  | _, .start r => QuotaRequest userId r
  | σ, .env ms => getMonthBounds (σ.world.now + ms) = getMonthBounds σ.world.now
  | _, .call _ _ _ => True

/-! ### Links -/

section Links

variable {userId : String} {month : Int × Int} {limit : Int} {k start : Nat}
  {σ : Shared (mikrouli P)} {i : Nat} {c : Cmd} {ch : Choice} {w w' : World}
  {res : Except AppError c.Res} {G : Guard (mikrouli P)}

/-- Commands that neither count nor insert links for the user, and leave accounts alone. -/
def LinkNeutral (userId : String) : Cmd → Prop
  | .countLinks u _ _ => u ≠ userId
  | .insertLinkWithOutbox fields => fields.userId ≠ userId
  | c => c.writesAccounts = false

theorem count_createdBy_insert (userId : String) (month : Int × Int) {links : LinkTable} {link : Link}
    (inserted : w.links.insert? link = some links) :
    linkRows userId month { w with links := links } =
      linkRows userId month w + if link.createdBy userId month.1 month.2 then 1 else 0 :=
  Table.count_insert inserted _

theorem LinkNeutral.accounts (neutral : LinkNeutral userId c) : c.writesAccounts = false := by
  cases c <;> first | rfl | exact neutral

theorem linkRows_of_neutral (month : Int × Int) (neutral : LinkNeutral userId c)
    (returned : exec P i c ch w = some (res, w')) :
    linkRows userId month w' ≤ linkRows userId month w := by
  cases c with
  | insertLinkWithOutbox fields =>
    rcases exec_insertLinkWithOutbox returned with
      ⟨rfl, -⟩ | ⟨link, links, -, inserted, row, rfl⟩
    · exact Nat.le_refl _
    · have counted := count_createdBy_insert userId month inserted
      -- a row of another user does not count
      have foreign : link.createdBy userId month.1 month.2 = false := by
        have other : fields.userId ≠ userId := neutral
        rw [row]
        simp [Link.createdBy, other]
      rw [foreign] at counted
      exact Nat.le_of_eq counted
  | updateLink slug u url =>
    rcases exec_updateLink returned with ⟨rfl, -⟩ | ⟨n, -, rfl⟩
    · exact Nat.le_refl _
    · exact Nat.le_of_eq (Table.count_update (by simp [Link.slugKey]) fun _ => rfl)
  | deleteLink slug =>
    rcases exec_deleteLink returned with ⟨rfl, -⟩ | ⟨n, -, rfl⟩
    · exact Nat.le_refl _
    · exact Table.count_delete_le _ _ _
  | _ => rw [linkRows, (exec_frame returned).links rfl]; exact Nat.le_refl _

/-- Neutral commands keep the gate's invariant. -/
theorem linkGate_neutral (neutral : LinkNeutral userId c) :
    (linkGate P userId month limit).Keeps k start c := by
  intro σ i ch res w inv returned
  refine inv.ease returned neutral.accounts (linkRows_of_neutral month neutral returned) ?_
  apply pendingLinks_of_cons
  cases c with
  | countLinks u a b =>
    have other : u ≠ userId := neutral
    cases res <;> simp [countedLinks, other]
  | _ => rfl

abbrev linkContract (P : Platform) (userId : String) (month : Int × Int) (limit : Int)
    (k start : Nat) : Contract (mikrouli P) := (linkGate P userId month limit).contract k start

/-- With `n` attempts left, the thread is pending and has only met collisions. -/
structure Retrying (userId : String) (month : Int × Int) (limit : Int) (n : Nat)
    (es : List (Event (mikrouli P))) : Prop where
  counted : es.any (countedLinks userId month limit) = true
  found : es.any limitMissed = false
  collisions : (es.filterMap linkAttempt).all isCollision = true
  left : (es.filterMap linkAttempt).length + n = MAX_SLUG_RETRIES

theorem Retrying.pending {n : Nat} {es : List (Event (mikrouli P))}
    (retrying : Retrying userId month limit (n + 1) es) :
    pendingLinks userId month limit es = true := by
  have left := retrying.left
  simp only [pendingLinks, retrying.counted, retrying.found, retrying.collisions, Bool.not_false,
    Bool.and_self, Bool.true_and, decide_eq_true_eq]
  omega

theorem Retrying.cons {n : Nat} {e : Event (mikrouli P)} {es : List (Event (mikrouli P))}
    (retrying : Retrying userId month limit n es) (found : limitMissed e = false)
    (attempt : linkAttempt e = none) : Retrying userId month limit n (e :: es) := by
  obtain ⟨counted, missed, collisions, left⟩ := retrying
  constructor
  · simp [counted]
  · rw [List.any_cons, found, missed]
    rfl
  · rw [List.filterMap_cons, attempt]
    exact collisions
  · rw [List.filterMap_cons, attempt]
    exact left

theorem Retrying.collide {n : Nat} {fields : LinkFields} {e : AppError}
    {es : List (Event (mikrouli P))} (retrying : Retrying userId month limit (n + 1) es)
    (violation : isUniqueViolation e = true) :
    Retrying userId month limit n (.call (.insertLinkWithOutbox fields) (.error e) :: es) := by
  obtain ⟨counted, missed, collisions, left⟩ := retrying
  constructor
  · simp [counted]
  · rw [List.any_cons, missed]
    rfl
  · rw [List.filterMap_cons]
    simp only [linkAttempt, List.all_cons, collisions, Bool.and_true]
    exact violation
  · rw [List.filterMap_cons]
    simp only [linkAttempt, List.length_cons]
    omega

/-- The insert of a pending thread: a row more and the thread pending no more, or no row. -/
theorem linkGate_insert {fields : LinkFields} {res : Except AppError Link} {n : Nat}
    (owner : fields.userId = userId) (inv : (linkGate P userId month limit).Inv k start σ)
    (retrying : Retrying userId month limit (n + 1) (σ.own i))
    (returned : exec P i (.insertLinkWithOutbox fields) ch σ.world = some (res, w)) :
    (linkGate P userId month limit).Inv k start
      (σ.called i (.insertLinkWithOutbox fields) res w) := by
  rcases exec_insertLinkWithOutbox returned with ⟨same, e, rfl⟩ | ⟨link, links, rfl, inserted, row, after⟩
  · refine inv.ease returned rfl (by rw [same]) (pendingLinks_of_cons rfl)
  · refine inv.act returned rfl ?_ retrying.pending ?_
    · have counted := count_createdBy_insert userId month inserted
      -- the row is made now, and now is in the gate's month
      have mine : link.createdBy userId month.1 month.2 = true := by
        have bounds : getMonthBounds σ.world.now = month := inv.side.month
        have inMonth := getMonthBounds_mem σ.world.now
        rw [bounds] at inMonth
        rw [row]
        simpa [Link.createdBy, owner] using inMonth
      rw [mine] at counted
      rw [after]
      exact counted
    · simp [linkGate, pendingLinks, linkAttempt, isCollision]

theorem countLinks_safe
    (room : ∀ σ i a b ch, G σ (.call i (.countLinks userId a b) ch) →
      (linkGate P userId month limit).Room k σ)
    (undecided : Undecided triedLink (σ.own i)) :
    Safe (linkContract P userId month limit k start) G i
      (fun r σ' => ∀ n : Nat, r = .ok n → Undecided triedLink (σ'.own i) ∧
        ((n : Int) < limit → (σ'.own i).any (countedLinks userId month limit) = true))
      (UsageService.countLinksThisMonth userId) σ := by
  refine Gate.safe_month (K := Undecided triedLink)
    (fun bounds => await (.countLinks userId bounds.1 bounds.2)) (linkGate_neutral rfl)
    (fun _ => undecided.cons rfl rfl) fun σ₁ undecided₁ => ?_
  apply Safe.perform
  intro σ₂ rely inv
  refine ⟨trivial, fun ch res w returned allowed => ?_⟩
  obtain ⟨rfl, outcome⟩ := exec_countLinks returned
  have own : σ₂.own i = σ₁.own i := rely
  have undecided₂ : Undecided triedLink (.call (.countLinks userId month.1 month.2) res :: σ₂.own i) := by
    rw [own]
    exact undecided₁.cons rfl rfl
  refine ⟨?_, Gate.rely_called, ?_⟩
  · by_cases below : (linkRows userId month σ₂.world : Int) < limit
    · exact inv.check returned rfl rfl below (room _ _ _ _ _ allowed below)
    -- not below the limit: the count makes nobody pending
    · refine inv.ease returned rfl (Nat.le_refl _) (pendingLinks_of_cons ?_)
      rcases outcome with rfl | rfl
      · rfl
      · exact decide_eq_false fun passed => below passed.2.2
  · intro n answered
    rw [Shared.called_own_self]
    refine ⟨undecided₂, fun below => ?_⟩
    rcases outcome with rfl | rfl
    · cases answered
    · cases answered
      simpa [countedLinks] using .inl ⟨rfl, below⟩

theorem getLinkLimit_safe {n : Nat} (undecided : Undecided triedLink (σ.own i))
    (counted : (n : Int) < limit → (σ.own i).any (countedLinks userId month limit) = true) :
    Safe (linkContract P userId month limit k start) G i
      (fun r σ' => ∀ l : Int, r = .ok l → l = limit ∧
        ((n : Int) < limit → Retrying userId month limit MAX_SLUG_RETRIES (σ'.own i)))
      (UsageService.getLinkLimit P userId) σ := by
  refine (Gate.safe_limit (linkGate_neutral rfl)).mono fun r σ' limited l answered => ?_
  obtain ⟨same, user, own⟩ := limited l answered
  refine ⟨same, fun below => ?_⟩
  rw [own]
  constructor
  · rw [List.any_cons, counted below, Bool.or_true]
  · rw [List.any_cons, undecided.found]
    rfl
  · rw [List.filterMap_cons]
    simp [linkAttempt, undecided.filterMap_linkAttempt]
  · rw [List.filterMap_cons]
    simp [linkAttempt, undecided.filterMap_linkAttempt]

theorem retryOnSlugConflict_safe {url : String} {expiresAt : Option Int} {n : Nat}
    (retrying : Retrying userId month limit n (σ.own i)) :
    Safe (linkContract P userId month limit k start) G i (fun _ _ => True)
      (retryOnSlugConflict (LinksService.tryCreate url userId expiresAt) n) σ := by
  induction n generalizing σ with
  | zero => trivial
  | succ n ih =>
    apply Safe.bind
    apply Safe.tryCatch
    apply Safe.bind
    apply Safe.bind
    apply Gate.safe_keeps
    · exact linkGate_neutral rfl
    intro σ₁ ch res w₁ own inv returned
    obtain ⟨rfl, slug, -, rfl⟩ := exec_generateSlug returned
    apply Safe.perform
    intro σ₂ rely inv₂
    have own₂ : σ₂.own i = (σ₁.called i .generateSlug (.ok slug) σ₁.world).own i := rely
    -- drawing a slug is no attempt; the insertion is
    have ready : Retrying userId month limit (n + 1) (σ₂.own i) := by
      rw [own₂, Shared.called_own_self, own]
      exact retrying.cons rfl rfl
    refine ⟨trivial, fun ch₂ res₂ w₂ returned₂ _ => ⟨?_, Gate.rely_called, ?_⟩⟩
    · exact linkGate_insert rfl inv₂ ready returned₂
    · cases res₂ with
      | ok link => trivial
      | error e =>
        simp only
        split
        next violation =>
          apply ih
          rw [Shared.called_own_self]
          -- one attempt less, and nothing but collisions so far
          exact ready.collide violation
        · trivial

theorem createUnmetered_safe {url : String} {explicit : Option (Option Int)}
    (retrying : Retrying userId month limit MAX_SLUG_RETRIES (σ.own i)) :
    Safe (linkContract P userId month limit k start) G i (fun _ _ => True)
      (LinksService.createUnmetered url userId explicit) σ := by
  apply Safe.bind
  cases explicit with
  | some expiry => exact retryOnSlugConflict_safe retrying
  | none =>
    apply Safe.bind
    apply Gate.safe_keeps
    · exact linkGate_neutral rfl
    intro σ₁ ch res w₁ own inv returned
    obtain ⟨rfl, rfl⟩ := exec_dateNow returned
    apply retryOnSlugConflict_safe
    rw [Shared.called_own_self, own]
    exact retrying.cons rfl rfl

theorem create_safe {url : String} {explicit : Option (Option Int)}
    (room : ∀ σ i a b ch, G σ (.call i (.countLinks userId a b) ch) →
      (linkGate P userId month limit).Room k σ)
    (undecided : Undecided triedLink (σ.own i)) :
    Safe (linkContract P userId month limit k start) G i (fun _ _ => True)
      (LinksService.create P url userId explicit) σ := by
  apply Safe.bind
  refine (countLinks_safe room undecided).mono fun r σ₁ counted => ?_
  cases r with
  | error e => trivial
  | ok n =>
    obtain ⟨undecided₁, passed⟩ := counted n rfl
    apply Safe.bind
    refine (getLinkLimit_safe undecided₁ passed).mono fun r σ₂ limited => ?_
    cases r with
    | error e => trivial
    | ok l =>
      obtain ⟨rfl, retrying⟩ := limited l rfl
      simp only
      split
      · trivial
      -- the limit lets the thread through exactly if its count was below it
      next below => exact createUnmetered_safe (retrying (Int.not_le.mp below))

/-- Requests that create no links for the user keep to neutral commands. -/
theorem linkNeutral_of_mayIssue {r : Req} (quota : QuotaRequest userId r)
    (other : r.linkOwner? ≠ some userId) (issued : r.MayIssue c) : LinkNeutral userId c := by
  cases c with
  | countLinks u a b => exact fun same => other (same ▸ issued)
  | insertLinkWithOutbox fields => exact fun same => other (same ▸ issued)
  | commit | rollback => exact absurd issued (by simp [Req.MayIssue, quota.1])
  | insertUser e h => exact absurd issued (by simp [Req.MayIssue, quota.1])
  | saveProviderAccount p u => exact absurd issued (by simp [Req.MayIssue, quota.1])
  | _ => rfl

theorem serve_linkSafe {r : Req} (quota : QuotaRequest userId r)
    (room : ∀ σ i a b ch, G σ (.call i (.countLinks userId a b) ch) →
      (linkGate P userId month limit).Room k σ)
    (fresh : σ.own i = [.start r]) :
    Safe (linkContract P userId month limit k start) G i (fun _ _ => True) (serve P r) σ := by
  have undecided : Undecided triedLink (σ.own i) := by
    rw [fresh]
    exact ⟨rfl, rfl⟩
  by_cases mine : r.linkOwner? = some userId
  · -- the user's own creations go through the gate
    cases r with
    | createLink user url expiresAt =>
      have same : user.id = userId := Option.some.inj mine
      have metered := quota.2 user url expiresAt rfl same
      subst same
      apply Safe.map
      unfold LinksController.create
      rw [metered]
      apply Safe.bind
      refine (create_safe room undecided).mono fun r σ' _ => ?_
      cases r with
      | error e => trivial
      | ok link =>
        refine Gate.safe_of_keeps ?_ fun _ _ => trivial
        exact .bind (only_cacheSet (linkGate_neutral rfl) fun _ => linkGate_neutral rfl)
          fun _ => trivial
    | createShortLink u url expiresAt =>
      have same : u = userId := Option.some.inj mine
      subst same
      apply Safe.bind
      refine (create_safe room undecided).mono fun r σ' _ => ?_
      cases r <;> trivial
    | _ => cases mine
  · refine Gate.safe_of_keeps ((serve_only P r).mono fun c issued => linkGate_neutral ?_)
      fun _ _ => trivial
    exact linkNeutral_of_mayIssue quota mine issued

end Links

/-! ### Keys -/

section Keys

variable {userId : String} {month : Int × Int} {limit : Int} {k start : Nat}
  {σ : Shared (mikrouli P)} {i : Nat} {c : Cmd} {ch : Choice} {w w' : World}
  {res : Except AppError c.Res} {G : Guard (mikrouli P)}

/-- Commands that neither count nor insert keys for the user, and leave accounts alone. -/
def KeyNeutral (userId : String) : Cmd → Prop
  | .countKeys u _ _ => u ≠ userId
  | .saveApiKey u _ _ _ => u ≠ userId
  | c => c.writesAccounts = false

theorem KeyNeutral.accounts (neutral : KeyNeutral userId c) : c.writesAccounts = false := by
  cases c <;> first | rfl | exact neutral

theorem keyRows_of_neutral (neutral : KeyNeutral userId c)
    (returned : exec P i c ch w = some (res, w')) :
    keyRows userId month w' ≤ keyRows userId month w := by
  cases c with
  | saveApiKey u label keyHash keyPrefix =>
    rcases keyRows_saveApiKey userId month returned with ⟨-, same⟩ | ⟨key, -, owner, -, counted⟩
    · exact Nat.le_of_eq same
    · have other : u ≠ userId := neutral
      have foreign : key.createdBy userId month.1 month.2 = false := by
        simp [ApiKey.createdBy, owner, other]
      rw [foreign] at counted
      exact Nat.le_of_eq counted
  | _ => exact Nat.le_of_eq (keyRows_of_other userId month (by simp) returned)

theorem keyGate_neutral (neutral : KeyNeutral userId c) :
    (keyGate P userId month limit).Keeps k start c := by
  intro σ i ch res w inv returned
  refine inv.ease returned neutral.accounts (keyRows_of_neutral neutral returned) ?_
  apply pendingKeys_of_cons
  cases c with
  | countKeys u a b =>
    have other : u ≠ userId := neutral
    cases res <;> simp [countedKeys, other]
  | _ => rfl

abbrev keyContract (P : Platform) (userId : String) (month : Int × Int) (limit : Int)
    (k start : Nat) : Contract (mikrouli P) := (keyGate P userId month limit).contract k start

theorem countKeys_safe
    (room : ∀ σ i a b ch, G σ (.call i (.countKeys userId a b) ch) →
      (keyGate P userId month limit).Room k σ)
    (undecided : Undecided keyAttempt (σ.own i)) :
    Safe (keyContract P userId month limit k start) G i
      (fun r σ' => ∀ n : Nat, r = .ok n → Undecided keyAttempt (σ'.own i) ∧
        ((n : Int) < limit → (σ'.own i).any (countedKeys userId month limit) = true))
      (UsageService.countKeysThisMonth userId) σ := by
  refine Gate.safe_month (K := Undecided keyAttempt)
    (fun bounds => await (.countKeys userId bounds.1 bounds.2)) (keyGate_neutral rfl)
    (fun _ => undecided.cons rfl rfl) fun σ₁ undecided₁ => ?_
  apply Safe.perform
  intro σ₂ rely inv
  refine ⟨trivial, fun ch res w returned allowed => ?_⟩
  obtain ⟨rfl, outcome⟩ := exec_countKeys returned
  have own : σ₂.own i = σ₁.own i := rely
  have undecided₂ : Undecided keyAttempt (.call (.countKeys userId month.1 month.2) res :: σ₂.own i) := by
    rw [own]
    exact undecided₁.cons rfl rfl
  refine ⟨?_, Gate.rely_called, ?_⟩
  · by_cases below : (keyRows userId month σ₂.world : Int) < limit
    · exact inv.check returned rfl rfl below (room _ _ _ _ _ allowed below)
    · refine inv.ease returned rfl (Nat.le_refl _) (pendingKeys_of_cons ?_)
      rcases outcome with rfl | rfl
      · rfl
      · exact decide_eq_false fun passed => below passed.2.2
  · intro n answered
    rw [Shared.called_own_self]
    refine ⟨undecided₂, fun below => ?_⟩
    rcases outcome with rfl | rfl
    · cases answered
    · cases answered
      simpa [countedKeys] using .inl ⟨rfl, below⟩

theorem getKeyLimit_safe {n : Nat} (undecided : Undecided keyAttempt (σ.own i))
    (counted : (n : Int) < limit → (σ.own i).any (countedKeys userId month limit) = true) :
    Safe (keyContract P userId month limit k start) G i
      (fun r σ' => ∀ l : Int, r = .ok l → l = limit ∧ Undecided keyAttempt (σ'.own i) ∧
        ((n : Int) < limit → (σ'.own i).any (countedKeys userId month limit) = true))
      (UsageService.getKeyLimit P userId) σ := by
  refine (Gate.safe_limit (keyGate_neutral rfl)).mono fun r σ' limited l answered => ?_
  obtain ⟨same, user, own⟩ := limited l answered
  rw [own]
  refine ⟨same, undecided.cons rfl rfl, fun below => ?_⟩
  rw [List.any_cons, counted below, Bool.or_true]

/-- The insert of a pending thread ends its being pending, whatever comes of it. -/
theorem saveApiKey_safe {label keyHash keyPrefix : String}
    {Q : Except AppError ApiKey → Shared (mikrouli P) → Prop} (post : ∀ r σ, Q r σ)
    (undecided : Undecided keyAttempt (σ.own i))
    (counted : (σ.own i).any (countedKeys userId month limit) = true) :
    Safe (keyContract P userId month limit k start) G i Q
      (await (.saveApiKey userId label keyHash keyPrefix)) σ := by
  apply Safe.perform
  intro σ' rely inv
  have own : σ'.own i = σ.own i := rely
  refine ⟨trivial, fun ch res w returned _ => ⟨?_, Gate.rely_called, post _ _⟩⟩
  rcases keyRows_saveApiKey userId month returned with
    ⟨-, same⟩ | ⟨key, rfl, owner, created, one⟩
  · exact inv.ease returned rfl (Nat.le_of_eq same) (pendingKeys_of_cons rfl)
  · refine inv.act returned rfl ?_ ?_ ?_
    · have mine : key.createdBy userId month.1 month.2 = true := by
        have bounds : getMonthBounds σ'.world.now = month := inv.side.month
        have inMonth := getMonthBounds_mem σ'.world.now
        rw [bounds] at inMonth
        simpa [ApiKey.createdBy, owner, created] using inMonth
      rw [mine] at one
      exact one
    · change pendingKeys userId month limit (σ'.own i) = true
      rw [own, pendingKeys, counted, undecided.found, undecided.untried]
      rfl
    -- a key is tried once, whatever comes of it
    · simp [keyGate, pendingKeys, keyAttempt]

theorem createForUser_safe {label : String}
    (room : ∀ σ i a b ch, G σ (.call i (.countKeys userId a b) ch) →
      (keyGate P userId month limit).Room k σ)
    (undecided : Undecided keyAttempt (σ.own i)) :
    Safe (keyContract P userId month limit k start) G i (fun _ _ => True)
      (ApiKeysService.createForUser P userId label) σ := by
  apply Safe.bind
  refine (countKeys_safe room undecided).mono fun r σ₁ counted => ?_
  cases r with
  | error e => trivial
  | ok n =>
    obtain ⟨undecided₁, passed⟩ := counted n rfl
    apply Safe.bind
    refine (getKeyLimit_safe undecided₁ passed).mono fun r σ₂ limited => ?_
    cases r with
    | error e => trivial
    | ok l =>
      obtain ⟨rfl, undecided₂, passed₂⟩ := limited l rfl
      simp only
      split
      · trivial
      next below =>
        have counted₂ := passed₂ (Int.not_le.mp below)
        -- drawing and hashing the secret leave the thread pending
        apply Safe.bind
        apply Safe.bind
        apply Gate.safe_keeps
        · exact keyGate_neutral rfl
        intro σ₃ ch₃ res₃ w₃ own₃ _ _
        have undecided₃ : Undecided keyAttempt ((σ₃.called i .randomSecret res₃ w₃).own i) := by
          rw [Shared.called_own_self, own₃]
          exact undecided₂.cons rfl rfl
        have counted₃ : ((σ₃.called i .randomSecret res₃ w₃).own i).any
            (countedKeys userId month l) = true := by
          rw [Shared.called_own_self, own₃, List.any_cons, counted₂, Bool.or_true]
        cases res₃ with
        | error e => trivial
        | ok random =>
          apply Safe.bind
          apply Gate.safe_keeps
          · exact keyGate_neutral rfl
          intro σ₄ ch₄ res₄ w₄ own₄ _ _
          cases res₄ with
          | error e => trivial
          | ok keyHash =>
            apply Safe.bind
            refine saveApiKey_safe ?_ ?_ ?_
            · intro r σ
              cases r <;> trivial
            · rw [Shared.called_own_self, own₄]
              exact undecided₃.cons rfl rfl
            · rw [Shared.called_own_self, own₄, List.any_cons, counted₃, Bool.or_true]

theorem serve_keySafe {r : Req} (quota : QuotaRequest userId r)
    (room : ∀ σ i a b ch, G σ (.call i (.countKeys userId a b) ch) →
      (keyGate P userId month limit).Room k σ)
    (fresh : σ.own i = [.start r]) :
    Safe (keyContract P userId month limit k start) G i (fun _ _ => True) (serve P r) σ := by
  have undecided : Undecided keyAttempt (σ.own i) := by
    rw [fresh]
    exact ⟨rfl, rfl⟩
  by_cases mine : r.keyOwner? = some userId
  · cases r with
    | createKey u label =>
      have same : u = userId := Option.some.inj mine
      subst same
      exact .map (createForUser_safe room undecided)
    | _ => cases mine
  · refine Gate.safe_of_keeps ((serve_only P r).mono fun c issued => keyGate_neutral ?_)
      fun _ _ => trivial
    cases c with
    | countKeys u a b => exact fun same => mine (same ▸ issued)
    | saveApiKey u label h p => exact fun same => mine (same ▸ issued)
    | commit | rollback => exact absurd issued (by simp [Req.MayIssue, quota.1])
    | insertUser e h => exact absurd issued (by simp [Req.MayIssue, quota.1])
    | saveProviderAccount p u => exact absurd issued (by simp [Req.MayIssue, quota.1])
    | _ => rfl

end Keys

/-! ### Both quotas -/

section Quotas

variable {userId : String} {linkLimit keyLimit : Int} {linkers keyers : Nat} {w₀ : World}

/-- At most `linkers` threads of the user are between a count of links that let them through
and their insert, and at most `keyers` for keys. -/
def overlapping (P : Platform) (userId : String) (month : Int × Int) (linkLimit keyLimit : Int)
    (linkers keyers : Nat) : Guard (mikrouli P)
  | σ, .call i (.countLinks u a b) ch =>
    creatorRuns P userId σ (.call i (.countLinks u a b) ch) ∧
      (u = userId → (linkGate P userId month linkLimit).Room linkers σ)
  | σ, .call i (.countKeys u a b) ch =>
    creatorRuns P userId σ (.call i (.countKeys u a b) ch) ∧
      (u = userId → (keyGate P userId month keyLimit).Room keyers σ)
  | σ, a => creatorRuns P userId σ a

theorem overlapping_creatorRuns {month : Int × Int} {σ : Shared (mikrouli P)} {a : Act (mikrouli P)}
    (allowed : overlapping P userId month linkLimit keyLimit linkers keyers σ a) :
    creatorRuns P userId σ a := by
  unfold overlapping at allowed
  split at allowed
  · exact allowed.1
  · exact allowed.1
  · exact allowed

/-- A gate's contract is sound when every thread is safe: the rest of the system neither
creates rows nor lets a month pass. -/
theorem Gate.sound {g : Gate P} {k start : Nat} {G : Guard (mikrouli P)}
    (calm : ∀ σ a, G σ a → creatorRuns P g.userId σ a)
    (untouched : ∀ w ms, g.rows (World.advance ms w) = g.rows w)
    (idle : ∀ r, g.pending [.start r] = false)
    (serves : ∀ σ i r, QuotaRequest g.userId r → σ.own i = [.start r] →
      Safe (g.contract k start) G i (fun _ _ => True) (serve P r) σ) :
    (g.contract k start).Sound G := by
  constructor
  · intro σ ms inv allowed
    have month : getMonthBounds (σ.world.now + ms) = getMonthBounds σ.world.now :=
      calm σ (.env ms) allowed
    refine ⟨⟨?_, ?_, inv.side.limit⟩, fun _ => rfl⟩
    · have run := inv.run
      rw [← untouched σ.world ms] at run
      exact run
    · exact month.trans inv.side.month
  · intro σ n r inv fresh allowed
    refine ⟨⟨?_, inv.side⟩, fun j other => ?_, ?_⟩
    -- a thread that has only started has counted nothing
    · rw [Shared.census_started g.silent fresh (idle r)]
      exact inv.run
    · exact Shared.started_own_of_ne other σ r
    · apply serves
      · exact calm σ (.start r) allowed
      · rw [Shared.started_own_self, fresh]

theorem linkGate_sound {month : Int × Int} {start : Nat} :
    (linkContract P userId month linkLimit linkers start).Sound
      (overlapping P userId month linkLimit keyLimit linkers keyers) := by
  apply Gate.sound
  · exact fun _ _ => overlapping_creatorRuns
  · exact fun _ _ => rfl
  · exact fun _ => rfl
  · exact fun σ i r quota => serve_linkSafe quota fun _ _ _ _ _ allowed => allowed.2 rfl

theorem keyGate_sound {month : Int × Int} {start : Nat} :
    (keyContract P userId month keyLimit keyers start).Sound
      (overlapping P userId month linkLimit keyLimit linkers keyers) := by
  apply Gate.sound
  · exact fun _ _ => overlapping_creatorRuns
  · exact fun _ _ => rfl
  · exact fun _ => rfl
  · exact fun σ i r quota => serve_keySafe quota fun _ _ _ _ _ allowed => allowed.2 rfl

/-- From its start, where no thread is pending, a gate overshoots its limit by fewer rows than
threads may be pending at once. -/
theorem Gate.rows_le {g : Gate P} {k : Nat} {G : Guard (mikrouli P)} {c : Config (mikrouli P)}
    (sound : (g.contract k (g.rows w₀)).Sound G) (positive : 1 ≤ k) (side : g.Side w₀)
    (below : (g.rows w₀ : Int) ≤ g.limit) (reach : Reach G (initial w₀) c) :
    (g.rows c.shared.world : Int) ≤ g.limit + k - 1 := by
  have init : (g.contract k (g.rows w₀)).Inv ⟨w₀, []⟩ := ⟨.refl, side⟩
  have inv : g.Inv k (g.rows w₀) c.shared := (sound.holds init reach).inv
  exact CheckThenAct.acts_le_of_run positive below inv.run

/-- The quotas are exceeded by at most as many rows as further threads may overlap one that
has counted and not inserted yet; without overlap they hold. -/
theorem quotas_exceeded_by_overlap
    (limits : ∀ v ∈ w₀.users.rows, v.row.id = userId →
      UsageService.resolveLinkLimit P v.row = linkLimit ∧
        UsageService.resolveKeyLimit P v.row = keyLimit)
    (links : (linkRows userId (getMonthBounds w₀.now) w₀ : Int) ≤ linkLimit)
    (keys : (keyRows userId (getMonthBounds w₀.now) w₀ : Int) ≤ keyLimit)
    (linker : 1 ≤ linkers) (keyer : 1 ≤ keyers) {c : Config (mikrouli P)}
    (reach : Reach
      (overlapping P userId (getMonthBounds w₀.now) linkLimit keyLimit linkers keyers)
      (initial w₀) c) :
    (linkRows userId (getMonthBounds w₀.now) c.shared.world : Int) ≤ linkLimit + linkers - 1 ∧
      (keyRows userId (getMonthBounds w₀.now) c.shared.world : Int) ≤ keyLimit + keyers - 1 := by
  constructor
  · refine Gate.rows_le linkGate_sound linker ⟨rfl, ?_⟩ links reach
    exact fun v member same => (limits v member same).1
  · refine Gate.rows_le keyGate_sound keyer ⟨rfl, ?_⟩ keys reach
    exact fun v member same => (limits v member same).2

/-- A user who may create one link a month. -/
def limitedUser : World := { World.empty 5000 with
  users := ⟨[⟨⟨"u", "u@ab.cd", none, some 1, none, 0⟩, none⟩], by simp⟩ }

def shortLink : Req := .createShortLink "u" "https://ab.cd" (some none)

/-- Two creations, each of which counts before the other inserts. -/
def twoCreations : List (Move (mikrouli Platform.plain)) :=
  [.start shortLink, .start shortLink, .run 0 {}, .run 0 {}, .run 0 {}, .run 1 {}, .run 1 {},
   .run 1 {}, .run 0 { draw := "abc123" }, .run 0 {}, .run 1 { draw := "def456" }, .run 1 {}]

/-- Decides that a step of `twoCreations` overlaps no more than one other thread. -/
def twoAtOnce (σ : Shared (mikrouli Platform.plain)) : Act (mikrouli Platform.plain) → Bool
  | .start r => decide (r = shortLink)
  | .call _ (.countLinks _ _ _) _ =>
    decide ((σ.census (pendingLinks "u" (getMonthBounds limitedUser.now) 1)).card < 2)
  | .call _ (.countKeys _ _ _) _ => false
  | .call _ _ _ => true
  | .env _ => false

theorem overlapping_of_twoAtOnce (σ : Shared (mikrouli Platform.plain))
    (a : Act (mikrouli Platform.plain)) (ready : twoAtOnce σ a = true) :
    overlapping Platform.plain "u" (getMonthBounds limitedUser.now) 1 10 2 1 σ a := by
  cases a with
  | start r =>
    have request : r = shortLink := of_decide_eq_true ready
    subst request
    exact ⟨rfl, fun _ _ _ other => by cases other⟩
  | call i c ch =>
    cases c with
    | countLinks u a b => exact ⟨trivial, fun _ _ => of_decide_eq_true ready⟩
    | countKeys u a b => cases ready
    | _ => trivial
  | env ms => cases ready

theorem quotas_exceeded_by_overlap_twice :
    ∃ c : Config (mikrouli Platform.plain), linkRows "u" (getMonthBounds limitedUser.now) c.shared.world = 2 ∧
      (linkRows "u" (getMonthBounds limitedUser.now) c.shared.world : Int) ≤ 1 + 2 - 1 := by
  obtain ⟨c, reach, twice⟩ := exists_reach_of_play overlapping_of_twoAtOnce
    (initial limitedUser) twoCreations
    (fun c => decide (linkRows "u" (getMonthBounds limitedUser.now) c.shared.world = 2)) (by decide +kernel)
  have bound := quotas_exceeded_by_overlap (by decide) (by decide) (by decide)
    (by decide) (by decide) reach
  exact ⟨c, of_decide_eq_true twice, bound.1⟩

/-- Two creations of a user with one link left may both pass the gate. -/
theorem quota_exceeded :
    ¬∀ (P : Platform) (w₀ : World) (userId : String) (linkLimit keyLimit : Int),
      (∀ v ∈ w₀.users.rows, v.row.id = userId →
        UsageService.resolveLinkLimit P v.row = linkLimit ∧
          UsageService.resolveKeyLimit P v.row = keyLimit) →
      (linkRows userId (getMonthBounds w₀.now) w₀ : Int) ≤ linkLimit →
      (keyRows userId (getMonthBounds w₀.now) w₀ : Int) ≤ keyLimit →
      ∀ c, Reach (creatorRuns P userId) (initial w₀) c →
        (∀ t ∈ c.threads, t.1.linkOwner? = some userId ∨ t.1.keyOwner? = some userId) →
        (linkRows userId (getMonthBounds w₀.now) c.shared.world : Int) ≤ linkLimit ∧
          (keyRows userId (getMonthBounds w₀.now) c.shared.world : Int) ≤ keyLimit := by
  intro never
  obtain ⟨c, reach, passed⟩ := exists_reach_of_play overlapping_of_twoAtOnce
    (initial limitedUser) twoCreations
    (fun c => decide (linkRows "u" (getMonthBounds limitedUser.now) c.shared.world = 2) &&
      c.threads.all fun t => decide (t.1 = shortLink)) (by decide +kernel)
  simp only [Bool.and_eq_true, decide_eq_true_eq, List.all_eq_true] at passed
  have creators : ∀ t ∈ c.threads, t.1.linkOwner? = some "u" ∨ t.1.keyOwner? = some "u" := by
    intro t member
    rw [passed.2 t member]
    exact .inl rfl
  have below := (never Platform.plain limitedUser "u" 1 10 (by decide) (by decide) (by decide) c
    (reach.weaken fun _ _ => overlapping_creatorRuns) creators).1
  have twice : linkRows "u" (getMonthBounds limitedUser.now) c.shared.world = 2 := passed.1
  omega

end Quotas

end Mikrouli
