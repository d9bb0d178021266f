import Mikrouli.Model.Footprint
import Mikrouli.Properties.Standing

/-! What a thread that works on links has done before each of its commands, and when it ends,
read off its own events. -/

namespace Mikrouli

open Async Store

variable {P : Platform}

/-! ### Events -/

def linkAttempt : Event (mikrouli P) → Option (Except AppError Link)
  | .call (.insertLinkWithOutbox _) res => some res
  | _ => none

def isCollision : Except AppError Link → Bool
  | .ok _ => false
  | .error e => isUniqueViolation e

/-- What came of the thread's inserts, newest first. -/
def attempts (es : Events P) : List (Except AppError Link) := es.filterMap linkAttempt

/-- `n` slugs in a row were taken. -/
abbrev collisions (n : Nat) : List (Except AppError Link) :=
  List.replicate n (.error .uniqueViolation)

/-- The thread was asked to create a link to the destination for the user. -/
def asksLink (userId url : String) : Event (mikrouli P) → Bool
  | .start (.createLink user url' _) => decide (user.id = userId ∧ url' = url)
  | .start (.createShortLink userId' url' _) => decide (userId' = userId ∧ url' = url)
  | _ => false

/-- What an event says of the row under a slug: its owner and its destination. An UPDATE that
changes nothing is taken as if it had. -/
def sees (slugKey : String) : Event (mikrouli P) → Option (String × String)
  | .call (.findLink slug) (.ok (some (l : Link))) =>
    if bpchar slug = slugKey then some (l.userId, l.originalUrl) else none
  | .call (.insertLinkWithOutbox _) (.ok (l : Link)) =>
    if l.slugKey = slugKey then some (l.userId, l.originalUrl) else none
  | .call (.updateLink slug userId url) (.ok _) =>
    if bpchar slug = slugKey then some (userId, url) else none
  | _ => none

/-- What the thread last saw of the row under a slug. -/
def seen (slugKey : String) (es : Events P) : Option (String × String) := es.findSome? (sees slugKey)

/-- The event changed the row under a slug. -/
def changes (slugKey : String) : Event (mikrouli P) → Bool
  | .call (.insertLinkWithOutbox _) (.ok (l : Link)) => decide (l.slugKey = slugKey)
  | .call (.updateLink slug _ _) (.ok (n : Nat)) => decide (bpchar slug = slugKey ∧ n ≠ 0)
  | .call (.deleteLink slug) (.ok (n : Nat)) => decide (bpchar slug = slugKey ∧ n ≠ 0)
  | _ => false

/-- The thread got to its cache step for a slug. -/
def refreshes (slug : String) : Event (mikrouli P) → Bool
  | .call (.redisSet key _ _) _ => decide (key = LinkCacheService.cacheKey slug)
  | .call (.redisDel key) _ => decide (key = LinkCacheService.cacheKey slug)
  | _ => false

/-- The thread changed the row of a slug and has its cache step for it still ahead. -/
def owes (slug : String) : Events P → Bool
  | [] => false
  | e :: es => !refreshes slug e && (changes (bpchar slug) e || owes slug es)

def asksRemoval (userId slug : String) : Event (mikrouli P) → Bool
  | .start (.removeLink userId' slug') => decide (userId' = userId ∧ slug' = slug)
  | _ => false

/-- The row was found and is the user's. -/
def finds (userId slug : String) : Event (mikrouli P) → Bool
  | .call (.findLink slug') (.ok (some (l : Link))) => decide (slug' = slug ∧ l.userId = userId)
  | _ => false

/-- The row was found to have expired. -/
def lists (slug : String) : Event (mikrouli P) → Bool
  | .call (.findExpiredLinks _ _) (.ok (batch : List Link)) =>
    batch.any fun l => decide (l.shortUrl.1 = slug)
  | _ => false

def deletes (slug : String) : Event (mikrouli P) → Bool
  | .call (.deleteLink slug') _ => decide (slug' = slug)
  | _ => false

/-- The thread found the user's row, is to delete it for them and has not tried yet. -/
def checked (userId slug : String) (es : Events P) : Bool :=
  es.any (asksRemoval userId slug) && es.any (finds userId slug) && !es.any (deletes slug)

/-- The thread found the row expired and has not tried to delete it yet. -/
def listed (slug : String) (es : Events P) : Bool := es.any (lists slug) && !es.any (deletes slug)

/-- The row the thread is about to cache, and the slug to cache it under. -/
inductive Holds (es : Events P) : String → Link → Prop
  | created {fields : LinkFields} {l : Link}
      (inserted : .call (.insertLinkWithOutbox fields) (.ok l) ∈ es) : Holds es l.shortUrl.1 l
  | edited {slug url : String} {l : Link} {n : Nat}
      (found : .call (.findLink slug) (.ok (some l)) ∈ es)
      (updated : .call (.updateLink slug l.userId url) (.ok n) ∈ es) :
      Holds es l.shortUrl.1 { l with originalUrl := url }
  | read {slug : String} {l : Link} (asked : .start (.resolve slug) ∈ es)
      (found : .call (.findLink slug) (.ok (some l)) ∈ es) : Holds es slug l

/-- The life of the entry was computed from the expiry, at a time the thread read. -/
def Lives (es : Events P) (expiresAt : Option Int) (ex : Option Nat) : Prop :=
  ∃ t, (expiresAt = none ∨ .call .dateNow (.ok t) ∈ es) ∧ ex = cacheLife expiresAt t

section Origins

variable {i : Nat} {c : Cmd} {ch : Choice} {w w' : World} {res : Except AppError c.Res}

/-- A row after a command was there before, with the slug, owner and expiry it has, or the command
has just inserted it; its destination only an UPDATE has changed. -/
theorem row_origin (returned : exec P i c ch w = some (res, w')) {r : Link}
    (after : r ∈ w'.links.rows) :
    (∃ r₀ ∈ w.links.rows, r₀.slugKey = r.slugKey ∧ r₀.userId = r.userId ∧
      r₀.expiresAt = r.expiresAt ∧ (r₀.originalUrl = r.originalUrl ∨
        ∃ slug userId, c = .updateLink slug userId r.originalUrl)) ∨
      ∃ fields, c = .insertLinkWithOutbox fields ∧
        r = ⟨fields.shortUrl, fields.originalUrl, fields.userId, w.now, fields.expiresAt⟩ := by
  cases c with
  | insertLinkWithOutbox fields =>
    rcases exec_insertLinkWithOutbox returned with ⟨rfl, -⟩ | ⟨link, links, -, inserted, row, rfl⟩
    · exact .inl ⟨r, after, rfl, rfl, rfl, .inl rfl⟩
    · rw [show _ = links.rows from rfl, (Table.insert?_eq_some.mp inserted).2] at after
      rcases List.mem_cons.mp after with rfl | old
      · exact .inr ⟨fields, rfl, row⟩
      · exact .inl ⟨r, old, rfl, rfl, rfl, .inl rfl⟩
  | updateLink slug userId url =>
    rcases exec_updateLink returned with ⟨rfl, -⟩ | ⟨n, -, rfl⟩
    · exact .inl ⟨r, after, rfl, rfl, rfl, .inl rfl⟩
    · obtain ⟨r₀, old, same⟩ := World.mem_setOriginalUrl.mp after
      refine .inl ⟨r₀, old, ?_⟩
      rw [← same]
      split
      · exact ⟨rfl, rfl, rfl, .inr ⟨slug, userId, rfl⟩⟩
      · exact ⟨rfl, rfl, rfl, .inl rfl⟩
  | deleteLink slug =>
    rcases exec_deleteLink returned with ⟨rfl, -⟩ | ⟨n, -, rfl⟩
    · exact .inl ⟨r, after, rfl, rfl, rfl, .inl rfl⟩
    · exact .inl ⟨r, (Table.mem_delete.mp after).1, rfl, rfl, rfl, .inl rfl⟩
  | _ =>
    rw [(exec_frame returned).links rfl] at after
    exact .inl ⟨r, after, rfl, rfl, rfl, .inl rfl⟩

/-- An entry of the store after a command was there before, or the command has just set it. -/
theorem entry_origin (returned : exec P i c ch w = some (res, w')) {key : String}
    {e : Stamped String} (after : w'.redis key = some e) :
    w.redis key = some e ∨ ∃ value ex, c = .redisSet key value ex ∧
      (.call c res : Event (mikrouli P)) = .call (.redisSet key value ex) (.ok ()) ∧
      e = ⟨value, ex.map fun n => w.now + 1000 * n⟩ := by
  cases c with
  | redisSet key' value ex =>
    rcases exec_redisSet returned with ⟨-, -, rfl⟩ | ⟨-, rfl, rfl⟩
    · exact .inl after
    · have stored : w.redis.set w.now key' value ex key = some e := after
      rw [Expiring.set_apply] at stored
      split at stored
      next same =>
        subst same
        exact .inr ⟨value, ex, rfl, rfl, (Option.some.inj stored).symm⟩
      · exact .inl stored
  | redisDel key' =>
    rcases exec_redisDel returned with ⟨-, -, rfl⟩ | ⟨-, -, rfl⟩
    · exact .inl after
    · exact .inl (Expiring.of_del_eq_some after)
  | redisGetDel key' =>
    rcases exec_redisGetDel returned with ⟨-, -, rfl⟩ | ⟨-, -, rfl⟩
    · exact .inl after
    · exact .inl (Expiring.of_del_eq_some after)
  | _ =>
    rw [(exec_frame returned).redis rfl] at after
    exact .inl after

end Origins

/-! ### Commands and ends -/

/-- What a thread has done before it issues a command. -/
def LinkStep (es : Events P) : Cmd → Prop
  | .insertLinkWithOutbox fields => es.any (asksLink fields.userId fields.originalUrl) = true ∧
      ∃ k < MAX_SLUG_RETRIES, attempts es = collisions k
  | .updateLink slug userId url => .start (.updateLink userId slug url) ∈ es ∧
      ∃ v, seen (bpchar slug) es = some (userId, v)
  | .deleteLink slug => (∃ userId, checked userId slug es = true) ∨
      (.start .cleanup ∈ es ∧ listed slug es = true)
  | .findExpiredLinks now _ => .call .dateNow (.ok now) ∈ es
  | .redisSet key value ex => (∃ family, key = buildRevocationKey family) ∨
      ∃ slug l, Holds es slug l ∧ key = LinkCacheService.cacheKey slug ∧ value = l.originalUrl ∧
        Lives es l.expiresAt ex ∧ seen (bpchar slug) es = some (l.userId, l.originalUrl) ∧
        ∀ slug, es.any (deletes slug) = false
  | _ => True

/-- How a creation fails: with the conflict after as many collisions as it may have and only
then; before its first insert; or with the error of its last insert, which is no collision. -/
def CreationFails (es : Events P) (e : AppError) : Prop :=
  ((∃ text, e = .conflict text) ∧ attempts es = collisions MAX_SLUG_RETRIES) ∨
    ((∀ text, e ≠ .conflict text) ∧ (attempts es = [] ∨
      ∃ k < MAX_SLUG_RETRIES, attempts es = .error e :: collisions k ∧ e ≠ .uniqueViolation))

/-- A creation that succeeds answers with the link of its last insert, after some collisions. -/
def CreationEnds (url : String) (es : Events P) : Except AppError Ans → Prop
  | .ok a => ∃ k < MAX_SLUG_RETRIES, ∃ l, attempts es = .ok l :: collisions k ∧
      l.originalUrl = url ∧ a = .link (toPublicLinkSchema l)
  | .error e => CreationFails es e

/-- A destination that was read from the cache or with its row. -/
def ReadDestination (slug u : String) (es : Events P) : Prop :=
  .call (.redisGet (LinkCacheService.cacheKey slug)) (.ok (some u)) ∈ es ∨
    ∃ l, .call (.findLink slug) (.ok (some l)) ∈ es ∧ l.originalUrl = u

/-- Where an answer of `resolve` comes from, and that only the database makes it fail. -/
def ResolutionEnds (slug : String) (es : Events P) : Except AppError Ans → Prop
  | .ok (.resolution (.active u)) =>
    (∃ es', es = .call (.redisGet (LinkCacheService.cacheKey slug)) (.ok (some u)) :: es') ∨
      ∃ l, .call (.findLink slug) (.ok (some l)) ∈ es ∧ l.originalUrl = u
  | .ok (.resolution .notFound) => .call (.findLink slug) (.ok none) ∈ es ∨
      ∃ u, hasHttpScheme P u = false ∧ ReadDestination slug u es
  | .ok _ => True
  | .error e => e = .queryFailed ∧ .call (.findLink slug) (.error e) ∈ es

/-- The requests whose cache step follows every change they make. -/
def Req.refreshing : Req → Bool
  | .createLink _ _ _ | .updateLink _ _ _ | .removeLink _ _ | .resolve _ | .cleanup => true
  | _ => false

/-- The request is one of the three that create a link. -/
def Req.Creates (r : Req) (url : String) : Prop :=
  (∃ user expiresAt, r = .createLink user url expiresAt) ∨
    ∃ userId expiresAt, r = .createShortLink userId url expiresAt

theorem Req.Creates.owned {r : Req} {url : String} (creates : r.Creates url) :
    r.linkOwner? ≠ none := by
  rcases creates with ⟨user, expiresAt, rfl⟩ | ⟨userId, expiresAt, rfl⟩
  · exact Option.some_ne_none _
  · exact Option.some_ne_none _

/-- A request creates at most one link. -/
theorem Req.Creates.unique {r : Req} {url url' : String} (creates : r.Creates url)
    (creates' : r.Creates url') : url = url' := by
  rcases creates with ⟨_, _, rfl⟩ | ⟨_, _, rfl⟩ <;>
    rcases creates' with ⟨_, _, same⟩ | ⟨_, _, same⟩ <;> cases same <;> rfl

/-- A thread that may insert a destination was asked for it. -/
theorem creates_of_asksLink {es : Events P} {userId url : String}
    (asked : es.any (asksLink userId url) = true) : ∃ r, .start r ∈ es ∧ r.Creates url := by
  obtain ⟨e, member, asks⟩ := List.any_eq_true.mp asked
  unfold asksLink at asks
  split at asks
  next user url' expiresAt =>
    obtain ⟨-, rfl⟩ := of_decide_eq_true asks
    exact ⟨_, member, .inl ⟨user, expiresAt, rfl⟩⟩
  next userId' url' expiresAt =>
    obtain ⟨-, rfl⟩ := of_decide_eq_true asks
    exact ⟨_, member, .inr ⟨userId', expiresAt, rfl⟩⟩
  · cases asks

/-- What a thread has done when it ends. -/
structure LinkEnd (r : Req) (es : Events P) (res : Except AppError Ans) : Prop where
  creation : ∀ url, r.Creates url → CreationEnds url es res
  idle : r.linkOwner? = none → attempts es = []
  resolution : ∀ slug, r = .resolve slug → ResolutionEnds slug es res
  settled : r.refreshing = true → r.StoredForm → ∀ slug, slug.length = SLUG_LENGTH →
    owes slug es = false

def links (P : Platform) : Contract (mikrouli P) := .ofHistory LinkStep LinkEnd

/-! ### Creation -/

/-- A creation after `k` collisions: it has changed no row and tried to delete none. -/
structure Creating (userId url : String) (k : Nat) (es : Events P) : Prop where
  asked : es.any (asksLink userId url) = true
  tried : attempts es = collisions k
  quiet : ∀ slug, owes slug es = false
  keeps : ∀ slug, es.any (deletes slug) = false

/-- How an insert with retries ends. -/
def Inserts (userId url : String) (es : Events P) : Except AppError Link → Prop
  | .ok l => ∃ k < MAX_SLUG_RETRIES, ∃ fields es₀, Creating userId url k es₀ ∧
      es = .call (.insertLinkWithOutbox fields) (.ok l) :: es₀ ∧ l.originalUrl = url
  | .error e => CreationFails es e ∧ ∀ slug, owes slug es = false

section Creation

variable {es : Events P} {e : Event (mikrouli P)} {userId url : String} {k n : Nat}

theorem owes_cons_of_silent {slug : String} (silent : changes (bpchar slug) e = false)
    (quiet : owes slug es = false) : owes slug (e :: es) = false := by
  simp [owes, silent, quiet]

theorem Creating.cons (creating : Creating userId url k es) (idle : linkAttempt e = none)
    (silent : ∀ slugKey, changes slugKey e = false) (keeps : ∀ slug, deletes slug e = false) :
    Creating userId url k (e :: es) := by
  constructor
  · rw [List.any_cons, creating.asked, Bool.or_true]
  · rw [attempts, List.filterMap_cons_none idle]
    exact creating.tried
  · exact fun slug => owes_cons_of_silent (silent _) (creating.quiet slug)
  · intro slug
    rw [List.any_cons, keeps, creating.keeps]
    rfl

theorem Creating.collide (creating : Creating userId url k es) {fields : LinkFields} :
    Creating userId url (k + 1)
      (.call (.insertLinkWithOutbox fields) (.error .uniqueViolation) :: es) := by
  constructor
  · rw [List.any_cons, creating.asked, Bool.or_true]
  · exact congrArg (List.cons (.error .uniqueViolation)) creating.tried
  · exact fun slug => owes_cons_of_silent rfl (creating.quiet slug)
  · exact fun slug => creating.keeps slug

theorem tryCreate_along {expiresAt : Option Int} (creating : Creating userId url k es)
    (few : k < MAX_SLUG_RETRIES) :
    Along LinkStep (fun es' r => match r with
      | .ok l => Inserts userId url es' (.ok l)
      | .error e => (e = .uniqueViolation ∧ Creating userId url (k + 1) es') ∨
          (e ≠ .uniqueViolation ∧ Inserts userId url es' (.error e)))
      (LinksService.tryCreate url userId expiresAt) es := by
  apply Along.bind
  apply await_along
  · trivial
  intro res i ch w w' returned
  -- the slug that was drawn
  obtain ⟨-, shortUrl, -, rfl⟩ := exec_generateSlug returned
  have ready := creating.cons (e := .call .generateSlug (.ok shortUrl)) rfl (fun _ => rfl)
    fun _ => rfl
  apply await_along
  -- the transaction of both inserts
  · exact ⟨ready.asked, k, few, ready.tried⟩
  · intro res i ch w w' returned
    cases res with
    | ok l =>
      rcases exec_insertLinkWithOutbox returned with ⟨-, e, failed⟩ | ⟨link, links, same, -, row, -⟩
      · cases failed
      · cases same
        exact ⟨k, few, _, _, ready, rfl, by rw [row]⟩
    | error e =>
      -- only a taken slug may be tried again
      by_cases collision : e = .uniqueViolation
      · subst collision
        exact .inl ⟨rfl, ready.collide⟩
      · have unconflicting : ∀ text, e ≠ .conflict text := by
          rintro text rfl
          rcases exec_insertLinkWithOutbox_error returned with h | h | h <;> cases h
        refine .inr ⟨collision, .inr ⟨unconflicting, .inr ⟨k, few, ?_, collision⟩⟩, ?_⟩
        · exact congrArg (List.cons (.error e)) ready.tried
        · exact fun slug => owes_cons_of_silent rfl (ready.quiet slug)

theorem isUniqueViolation_eq_true {e : AppError} :
    isUniqueViolation e = true ↔ e = .uniqueViolation := by
  cases e <;> simp [isUniqueViolation]

/-- The induction is on the attempts left; with those made they are as many as are allowed. -/
theorem retryOnSlugConflict_along {expiresAt : Option Int} (creating : Creating userId url k es)
    (budget : n + k = MAX_SLUG_RETRIES) :
    Along LinkStep (Inserts userId url)
      (retryOnSlugConflict (LinksService.tryCreate url userId expiresAt) n) es := by
  induction n generalizing k es with
  | zero =>
    rw [Nat.zero_add] at budget
    subst budget
    -- out of attempts: the conflict
    exact ⟨.inl ⟨⟨_, rfl⟩, creating.tried⟩, creating.quiet⟩
  | succ n ih =>
    apply Along.bind
    apply Along.tryCatch
    apply Along.bind
    refine (tryCreate_along creating (by omega)).mono fun es' r tried => ?_
    cases r with
    | ok l => exact tried
    | error e =>
      -- a collision is caught and counts as one attempt; anything else is thrown again
      rcases tried with ⟨rfl, again⟩ | ⟨other, failed⟩
      · exact ih again (by omega)
      · have thrown : isUniqueViolation e = false := by
          rw [← Bool.not_eq_true, isUniqueViolation_eq_true]
          exact other
        simp only [thrown]
        exact failed

theorem createUnmetered_along {explicit : Option (Option Int)}
    (creating : Creating userId url 0 es) :
    Along LinkStep (Inserts userId url) (LinksService.createUnmetered url userId explicit) es := by
  apply Along.bind
  cases explicit with
  | some expiry => exact retryOnSlugConflict_along creating rfl
  | none =>
    apply Along.bind
    apply await_along
    · trivial
    intro res i ch w w' returned
    obtain ⟨-, rfl⟩ := exec_dateNow returned
    exact retryOnSlugConflict_along (creating.cons rfl (fun _ => rfl) fun _ => rfl) rfl

theorem Creating.fails (creating : Creating userId url 0 es) {e : AppError}
    (other : ∀ text, e ≠ .conflict text) : Inserts userId url es (.error e) :=
  ⟨.inr ⟨other, .inl creating.tried⟩, creating.quiet⟩

theorem create_along {explicit : Option (Option Int)} (creating : Creating userId url 0 es) :
    Along LinkStep (Inserts userId url) (LinksService.create P url userId explicit) es := by
  apply Along.bind
  apply Along.bind
  apply await_along
  · trivial
  intro res i ch w w' returned
  obtain ⟨-, rfl⟩ := exec_dateNow returned
  have timed := creating.cons (e := .call .dateNow (.ok w.now)) rfl (fun _ => rfl) fun _ => rfl
  apply await_along
  · trivial
  intro counted i ch w₁ w' returned
  have metered := timed.cons
    (e := .call (.countLinks userId (getMonthBounds w.now).1 (getMonthBounds w.now).2) counted)
    rfl (fun _ => rfl) fun _ => rfl
  cases counted with
  | error e =>
    -- a failed count ends the creation before its first insert
    rcases exec_countLinks returned with ⟨-, same | same⟩ <;> cases same
    exact metered.fails (by simp)
  | ok count =>
    apply Along.bind
    apply Along.bind
    apply Along.bind
    apply await_along
    · trivial
    intro found i ch w₂ w' returned
    have known := metered.cons (e := .call (.findUserById userId) found) rfl (fun _ => rfl)
      fun _ => rfl
    cases found with
    | error e =>
      rcases exec_findUserById returned with ⟨-, ⟨-, same⟩ | same⟩ <;> cases same
      exact known.fails (by simp)
    | ok user =>
      cases user with
      | none => exact known.fails (by simp)
      | some user =>
        simp only [Prog.pure_eq, Along]
        split
        -- the limit has been reached
        · exact known.fails (by simp [MonthlyLinkLimitExceededError])
        · exact createUnmetered_along known

end Creation

/-! ### Cache steps -/

/-- The thread has made its cache step for a slug, whatever came of it. -/
structure Refreshed (slug : String) (es es' : Events P) : Prop where
  tried : attempts es' = attempts es
  keeps : ∀ e ∈ es, e ∈ es'
  settled : ∀ s, owes s es' = true → s ≠ slug ∧ owes s es = true
  deleted : ∀ s, es'.any (deletes s) = es.any (deletes s)

section CacheSteps

variable {es : Events P} {slug : String} {l : Link}

theorem Refreshed.cons {e : Event (mikrouli P)} (refresh : refreshes slug e = true)
    (idle : linkAttempt e = none) (silent : ∀ slugKey, changes slugKey e = false)
    (leaves : ∀ s, deletes s e = false) : Refreshed slug es (e :: es) := by
  refine ⟨List.filterMap_cons_none idle, fun _ => List.mem_cons_of_mem _, fun s owed => ?_,
    fun s => by rw [List.any_cons, leaves, Bool.false_or]⟩
  simp only [owes, silent, Bool.false_or, Bool.and_eq_true, Bool.not_eq_true'] at owed
  refine ⟨?_, owed.2⟩
  rintro rfl
  rw [refresh] at owed
  cases owed.1

theorem Refreshed.dateNow {es' : Events P} {t : Nat}
    (refreshed : Refreshed slug (.call .dateNow (.ok t) :: es) es') : Refreshed slug es es' := by
  refine ⟨refreshed.tried, fun e member => ?_, fun s owed => ?_, refreshed.deleted⟩
  · exact refreshed.keeps e (List.mem_cons_of_mem _ member)
  · obtain ⟨other, before⟩ := refreshed.settled s owed
    exact ⟨other, by simpa [owes, refreshes, changes] using before⟩

theorem setWithOptionalTtl_along {key value : String} {ttl : Option Nat}
    {ψ : Events P → Except AppError Unit → Prop}
    (pre : LinkStep es (.redisSet key value (ttl.filter (0 < ·))))
    (post : ∀ ex res, ψ (.call (.redisSet key value ex) res :: es) res) :
    Along LinkStep ψ (setWithOptionalTtl key value ttl) es := by
  have sets : ∀ ex, LinkStep es (.redisSet key value ex) →
      Along LinkStep ψ (await (.redisSet key value ex)) es := by
    intro ex pre
    exact await_along pre fun res _ _ _ _ _ => post ex res
  cases ttl with
  | none => exact sets none pre
  | some n =>
    simp only [setWithOptionalTtl]
    split
    next positive =>
      rw [Option.filter_some_pos (by simpa using positive)] at pre
      exact sets (some n) pre
    -- a life of no seconds is written as none at all
    next zero =>
      rw [Option.filter_some_neg (by simpa using zero)] at pre
      exact sets none pre

theorem safeSet_along {key value : String} {ttl : Option Nat}
    {ψ : Events P → Except AppError Unit → Prop}
    (pre : LinkStep es (.redisSet key value (ttl.filter (0 < ·))))
    (post : ∀ ex res, ψ (.call (.redisSet key value ex) res :: es) (.ok ())) :
    Along LinkStep ψ (safeSet key value ttl) es := by
  apply Along.tryCatch
  refine setWithOptionalTtl_along pre fun ex res => ?_
  cases res with
  -- a failed SET is swallowed
  | ok a => exact post ex (.ok a)
  | error e => exact post ex (.error e)

/-- The row a thread holds is cached, and no error comes of it. -/
theorem cacheSet_along (holds : Holds es slug l)
    (saw : seen (bpchar slug) es = some (l.userId, l.originalUrl))
    (keeps : ∀ s, es.any (deletes s) = false) :
    Along LinkStep (fun es' r => r = .ok () ∧ Refreshed slug es es')
      (LinkCacheService.set slug l.originalUrl l.expiresAt) es := by
  unfold LinkCacheService.set
  cases expiry : l.expiresAt with
  | none =>
    have lives : Lives es l.expiresAt (cacheLife none 0) := ⟨0, .inl expiry, by rw [expiry]⟩
    apply safeSet_along
    · exact .inr ⟨slug, l, holds, rfl, rfl, lives, saw, keeps⟩
    · exact fun ex res => ⟨rfl, .cons (decide_eq_true rfl) rfl (fun _ => rfl) fun _ => rfl⟩
  | some x =>
    apply Along.bind
    apply await_along
    · trivial
    intro res i ch w w' returned
    obtain ⟨-, rfl⟩ := exec_dateNow returned
    -- reading the clock for the life changes nothing the thread holds
    have later : Holds (.call .dateNow (.ok w.now) :: es) slug l := by
      cases holds with
      | created inserted => exact .created (List.mem_cons_of_mem _ inserted)
      | edited found updated =>
        exact .edited (List.mem_cons_of_mem _ found) (List.mem_cons_of_mem _ updated)
      | read asked found =>
        exact .read (List.mem_cons_of_mem _ asked) (List.mem_cons_of_mem _ found)
    have lives : Lives (.call .dateNow (.ok w.now) :: es) l.expiresAt (cacheLife (some x) w.now) :=
      ⟨w.now, .inr List.mem_cons_self, by rw [expiry]⟩
    apply safeSet_along
    · exact .inr ⟨slug, l, later, rfl, rfl, lives, saw, keeps⟩
    · intro ex res
      refine ⟨rfl, Refreshed.dateNow (t := w.now) ?_⟩
      exact .cons (decide_eq_true rfl) rfl (fun _ => rfl) fun _ => rfl

theorem cacheDel_along :
    Along LinkStep (fun es' r => r = .ok () ∧ Refreshed slug es es')
      (LinkCacheService.del slug) es := by
  apply Along.tryCatch
  apply await_along
  · trivial
  intro res _ _ _ _ _
  have refreshed : Refreshed slug es
      (.call (.redisDel (LinkCacheService.cacheKey slug)) res :: es) :=
    .cons (decide_eq_true rfl) rfl (fun _ => rfl) fun _ => rfl
  cases res with
  -- whether the DEL failed or not, the step has been made
  | ok a => exact ⟨rfl, refreshed⟩
  | error e => exact ⟨rfl, refreshed⟩

end CacheSteps

/-! ### Requests -/

section Requests

variable {es : Events P} {slug userId url : String}

/-- Slugs in stored form have the same row only if they are the same. -/
theorem eq_of_slugKey {s : String} (size : s.length = SLUG_LENGTH)
    (form : slug.length = SLUG_LENGTH) (same : bpchar slug = bpchar s) : s = slug :=
  bpchar_inj (size.trans form.symm) same.symm

/-- A creation has ended and owes no cache step. -/
def CreationSettles (url : String) (es : Events P) (r : Except AppError PublicLink) : Prop :=
  CreationEnds url es (r.map Ans.link) ∧ ∀ s, s.length = SLUG_LENGTH → owes s es = false

/-- A request has ended that creates nothing; asked for a slug in stored form, it owes no cache
step. -/
def Settles (slug : String) (es : Events P) : Prop :=
  attempts es = [] ∧
    (slug.length = SLUG_LENGTH → ∀ s, s.length = SLUG_LENGTH → owes s es = false)

/-- What a creation has inserted it caches, under the slug it owes a cache step for. -/
theorem cacheCreated_along {userId : String} {l : Link} (inserts : Inserts userId url es (.ok l)) :
    Along LinkStep (CreationSettles url) (do
      LinkCacheService.set l.shortUrl.1 l.originalUrl l.expiresAt
      pure (toPublicLinkSchema l)) es := by
  obtain ⟨k, few, fields, es₀, before, rfl, dest⟩ := inserts
  apply Along.bind
  refine (cacheSet_along (.created List.mem_cons_self) ?_ ?_).mono fun es₂ r post => ?_
  · simp [seen, sees, Link.slugKey]
  · exact fun s => before.keeps s
  · obtain ⟨rfl, refreshed⟩ := post
    refine ⟨⟨k, few, l, ?_, dest, rfl⟩, fun s size => ?_⟩
    · rw [refreshed.tried]
      exact congrArg (List.cons (.ok l)) before.tried
    · by_contra owed
      rw [Bool.not_eq_false] at owed
      obtain ⟨other, owed⟩ := refreshed.settled s owed
      -- only the insert changed a row, under the slug that was cached
      simp only [owes, before.quiet, Bool.or_false, Bool.and_eq_true, changes,
        decide_eq_true_eq] at owed
      exact other (eq_of_slugKey size l.shortUrl.2 owed.2)

theorem controllerCreate_along {user : LinksController.RequestUser}
    {expiresAt : Option (Option Int)} (creating : Creating user.id url 0 es) :
    Along LinkStep (CreationSettles url) (LinksController.create P user url expiresAt) es := by
  unfold LinksController.create
  split
  · apply Along.bind
    refine (createUnmetered_along creating).mono fun es' r inserts => ?_
    cases r with
    | ok l => exact cacheCreated_along inserts
    | error e => exact ⟨inserts.1, fun s _ => inserts.2 s⟩
  · apply Along.bind
    refine (create_along creating).mono fun es' r inserts => ?_
    cases r with
    | ok l => exact cacheCreated_along inserts
    | error e => exact ⟨inserts.1, fun s _ => inserts.2 s⟩

theorem getOwnedLink_along :
    Along LinkStep (fun es' r => match r with
      | .ok l => es' = .call (.findLink slug) (.ok (some l)) :: es ∧ l.userId = userId ∧
          l.slugKey = bpchar slug
      | .error _ => ∃ res, es' = .call (.findLink slug) res :: es)
      (LinksService.getOwnedLink slug userId) es := by
  apply Along.bind
  apply await_along
  · trivial
  intro res i ch w w' returned
  rcases exec_findLink returned with ⟨-, rfl | rfl⟩
  · exact ⟨_, rfl⟩
  · cases row : w.link? slug with
    | none => exact ⟨_, rfl⟩
    | some l =>
      simp only
      split
      next => exact ⟨_, rfl⟩
      next owner => exact ⟨rfl, not_not.mp owner, (World.link?_eq_some.mp row).2⟩

theorem remove_along :
    Along (V := mikrouli P) LinkStep (fun es' _ => Settles slug es')
      (LinksController.remove userId slug) [.start (.removeLink userId slug)] := by
  apply Along.bind
  apply Along.bind
  refine getOwnedLink_along.mono fun es₁ r found => ?_
  cases r with
  | error e =>
    obtain ⟨res, rfl⟩ := found
    exact ⟨rfl, fun _ s _ => rfl⟩
  | ok l =>
    -- the row is the user's: its DELETE, and then the cache step
    obtain ⟨rfl, owner, -⟩ := found
    apply Along.bind
    apply await_along
    · exact .inl ⟨userId, by simp [checked, asksRemoval, finds, deletes, owner]⟩
    intro res _ _ _ _ _
    cases res with
    | error e => exact ⟨rfl, fun _ s _ => rfl⟩
    | ok n =>
      refine cacheDel_along.mono fun es₂ r post => ?_
      obtain ⟨rfl, refreshed⟩ := post
      refine ⟨refreshed.tried, fun form s size => ?_⟩
      by_contra owed
      rw [Bool.not_eq_false] at owed
      obtain ⟨other, owed⟩ := refreshed.settled s owed
      have key : bpchar slug = bpchar s ∧ n ≠ 0 := by simpa [owes, changes, refreshes] using owed
      exact other (eq_of_slugKey size form key.1)

theorem update_along :
    Along (V := mikrouli P) LinkStep (fun es' _ => Settles slug es')
      (LinksController.update userId slug url) [.start (.updateLink userId slug url)] := by
  apply Along.bind
  apply Along.bind
  refine getOwnedLink_along.mono fun es₁ r found => ?_
  cases r with
  | error e =>
    obtain ⟨res, rfl⟩ := found
    exact ⟨rfl, fun _ s _ => rfl⟩
  | ok l =>
    obtain ⟨rfl, rfl, row⟩ := found
    apply Along.bind
    apply await_along
    -- the UPDATE follows the read of the row
    · exact ⟨by simp, l.originalUrl, by simp [seen, sees]⟩
    intro res _ _ _ _ _
    cases res with
    | error e => exact ⟨rfl, fun _ s _ => rfl⟩
    | ok n =>
      -- one of two cache steps is still to come, under the stored slug or the one asked for
      have settles : ∀ (es₂ : Events P) s₂, Refreshed s₂ [.call (.updateLink slug l.userId url) (.ok n),
            .call (.findLink slug) (.ok (some l)), .start (.updateLink l.userId slug url)] es₂ →
          bpchar s₂ = bpchar slug → (slug.length = SLUG_LENGTH → s₂.length = SLUG_LENGTH) →
          Settles slug es₂ := by
        intro es₂ s₂ refreshed same form₂
        refine ⟨refreshed.tried, fun form s size => ?_⟩
        by_contra owed
        rw [Bool.not_eq_false] at owed
        obtain ⟨other, owed⟩ := refreshed.settled s owed
        have key : bpchar slug = bpchar s ∧ n ≠ 0 := by simpa [owes, changes, refreshes] using owed
        exact other (eq_of_slugKey size (form₂ form) (same.trans key.1))
      have sets : ∀ es₂ : Events P,
          .call (.updateLink slug l.userId url) (.ok n) ∈ es₂ →
          .call (.findLink slug) (.ok (some l)) ∈ es₂ →
          seen (bpchar slug) es₂ = some (l.userId, url) → (∀ s, es₂.any (deletes s) = false) →
          Along LinkStep (fun es' r => r = .ok () ∧ Refreshed l.shortUrl.1 es₂ es')
            (LinkCacheService.set l.shortUrl.1 url l.expiresAt) es₂ := by
        intro es₂ updated found saw keeps
        have key : bpchar l.shortUrl.1 = bpchar slug := row
        exact cacheSet_along (l := { l with originalUrl := url }) (.edited found updated)
          (by rw [key]; exact saw) keeps
      simp only [Prog.pure_eq, Along]
      cases expiry : l.expiresAt with
      | none =>
        apply Along.bind
        rw [expiry] at sets
        refine (sets _ (by simp) (by simp) (by simp [seen, sees]) fun s => rfl).mono ?_
        rintro es₂ r ⟨rfl, refreshed⟩
        exact settles es₂ _ refreshed row fun _ => l.shortUrl.2
      | some x =>
        apply Along.bind
        apply await_along
        · trivial
        intro res i ch w w' returned
        obtain ⟨-, rfl⟩ := exec_dateNow returned
        simp only
        split
        next =>
          apply Along.bind
          refine cacheDel_along.mono ?_
          rintro es₂ r ⟨rfl, refreshed⟩
          exact settles es₂ _ refreshed.dateNow rfl id
        next =>
          apply Along.bind
          rw [expiry] at sets
          refine (sets _ (by simp) (by simp) (by simp [seen, List.findSome?, sees]) fun s => rfl).mono ?_
          rintro es₂ r ⟨rfl, refreshed⟩
          exact settles es₂ _ refreshed.dateNow row fun _ => l.shortUrl.2

/-- A resolution has ended and, having changed nothing, owes no cache step. -/
def Resolves (slug : String) (es : Events P) (r : Except AppError RedirectResolution) : Prop :=
  attempts es = [] ∧ ResolutionEnds slug es (r.map Ans.resolution) ∧ ∀ s, owes s es = false

theorem isExpired_along {l : Link} :
    Along (V := mikrouli P) LinkStep (fun es' r => (∃ expired, r = .ok expired) ∧
      (es' = es ∨ ∃ t, es' = .call .dateNow (.ok t) :: es)) (isExpired l) es := by
  unfold isExpired
  split
  · exact ⟨⟨_, rfl⟩, .inl rfl⟩
  · apply Along.bind
    apply await_along
    · trivial
    intro res i ch w w' returned
    obtain ⟨-, rfl⟩ := exec_dateNow returned
    exact ⟨⟨_, rfl⟩, .inr ⟨w.now, rfl⟩⟩

theorem resolveFromDatabase_along {got : Except AppError (Option String)} :
    Along (V := mikrouli P) LinkStep (Resolves slug) (RedirectService.resolveFromDatabase P slug)
      [.call (.redisGet (LinkCacheService.cacheKey slug)) got, .start (.resolve slug)] := by
  apply Along.bind
  apply await_along
  · trivial
  intro res i ch w w' returned
  rcases exec_findLink returned with ⟨-, rfl | rfl⟩
  -- a failed statement is all that makes a resolution fail
  · exact ⟨rfl, ⟨rfl, List.mem_cons_self⟩, fun s => by simp [owes, changes]⟩
  · cases row : w.link? slug with
    -- no row
    | none => exact ⟨rfl, .inl List.mem_cons_self, fun s => by simp [owes, changes]⟩
    | some l =>
      -- what follows the read does not depend on whether the clock was read for it
      have after : ∀ (es₁ : Events P) (expired : Bool), attempts es₁ = [] →
          .start (.resolve slug) ∈ es₁ → .call (.findLink slug) (.ok (some l)) ∈ es₁ →
          (∀ s, owes s es₁ = false) →
          seen (bpchar slug) es₁ = some (l.userId, l.originalUrl) →
          (∀ s, es₁.any (deletes s) = false) →
          Along LinkStep (Resolves slug) (if expired then pure .expired
            else if hasHttpScheme P l.originalUrl = false then pure .notFound
            else do
              LinkCacheService.set slug l.originalUrl l.expiresAt
              pure (.active l.originalUrl)) es₁ := by
        intro es₁ expired tried asked found quiet saw keeps
        split
        · exact ⟨tried, trivial, quiet⟩
        split
        next scheme =>
          -- a scheme the redirect does not serve
          exact ⟨tried, .inr ⟨l.originalUrl, scheme, .inr ⟨l, found, rfl⟩⟩, quiet⟩
        · apply Along.bind
          refine (cacheSet_along (.read asked found) saw keeps).mono ?_
          rintro es₂ r ⟨rfl, refreshed⟩
          refine ⟨refreshed.tried.trans tried, .inr ⟨l, refreshed.keeps _ found, rfl⟩, fun s => ?_⟩
          by_contra owed
          rw [Bool.not_eq_false] at owed
          have before := (refreshed.settled s owed).2
          rw [quiet] at before
          cases before
      apply Along.bind
      refine isExpired_along.mono ?_
      rintro es₁ r ⟨⟨expired, rfl⟩, rfl | ⟨t, rfl⟩⟩
      · exact after _ expired rfl (by simp) List.mem_cons_self
          (fun s => by simp [owes, changes]) (by simp [seen, sees]) fun s => rfl
      · exact after _ expired rfl (by simp) (List.mem_cons_of_mem _ List.mem_cons_self)
          (fun s => by simp [owes, changes]) (by simp [seen, List.findSome?, sees]) fun s => rfl

theorem resolve_along :
    Along (V := mikrouli P) LinkStep (Resolves slug) (RedirectService.resolve P slug)
      [.start (.resolve slug)] := by
  apply Along.bind
  apply Along.tryCatch
  apply await_along
  · trivial
  intro res _ _ _ _ _
  cases res with
  -- an error and a miss both lead to the database
  | error e => exact resolveFromDatabase_along
  | ok cached =>
    cases cached with
    | none => exact resolveFromDatabase_along
    | some u =>
      simp only
      split
      next scheme =>
        -- a cached destination with a scheme that is not served
        exact ⟨rfl, .inr ⟨u, scheme, .inl List.mem_cons_self⟩,
          fun s => by simp [owes, changes]⟩
      · exact ⟨rfl, .inl ⟨_, rfl⟩, fun s => by simp [owes, changes]⟩

/-- A cleanup in front of the rows it has yet to delete. -/
structure Cleaning (rest : List Link) (es : Events P) : Prop where
  asked : .start .cleanup ∈ es
  tried : attempts es = []
  quiet : ∀ s, s.length = SLUG_LENGTH → owes s es = false
  listed : ∀ l ∈ rest, listed l.shortUrl.1 es = true
  distinct : (rest.map fun l => l.shortUrl.1).Nodup

/-- After one row the next row's turn has come. -/
theorem Cleaning.next {l : Link} {rest : List Link} {es' : Events P}
    (cleaning : Cleaning (l :: rest) es) (tried : attempts es' = attempts es)
    (keeps : ∀ e ∈ es, e ∈ es') (quiet : ∀ s, s.length = SLUG_LENGTH → owes s es' = false)
    (deleted : ∀ s, s ≠ l.shortUrl.1 → es'.any (deletes s) = es.any (deletes s)) :
    Cleaning rest es' := by
  have distinct := List.nodup_cons.mp cleaning.distinct
  refine ⟨keeps _ cleaning.asked, tried.trans cleaning.tried, quiet, fun r member => ?_, distinct.2⟩
  -- the rows of a batch have slugs of their own, so the deletion of one is not that of another
  have other : r.shortUrl.1 ≠ l.shortUrl.1 := by
    intro same
    exact distinct.1 (List.mem_map.mpr ⟨r, member, same⟩)
  have before := cleaning.listed r (List.mem_cons_of_mem _ member)
  simp only [Mikrouli.listed, Bool.and_eq_true, Bool.not_eq_true'] at before ⊢
  obtain ⟨e, found, lists⟩ := List.any_eq_true.mp before.1
  exact ⟨List.any_eq_true.mpr ⟨e, keeps e found, lists⟩, (deleted _ other).trans before.2⟩

theorem deleteOneSafely_along {l : Link} {rest : List Link} (cleaning : Cleaning (l :: rest) es) :
    Along LinkStep (fun es' r => (∃ ok, r = .ok ok) ∧ Cleaning rest es')
      (CleanupService.deleteOneSafely l) es := by
  -- the DELETE leaves no debt for any other slug
  have unowed : ∀ (res : Except AppError Nat) s, s.length = SLUG_LENGTH → s ≠ l.shortUrl.1 →
      owes s (.call (.deleteLink l.shortUrl.1) res :: es) = false := by
    intro res s size other
    have apart : bpchar l.shortUrl.1 ≠ bpchar s :=
      fun same => other (eq_of_slugKey size l.shortUrl.2 same)
    cases res with
    | ok n => simp [owes, changes, apart, cleaning.quiet s size]
    | error e => simp [owes, changes, cleaning.quiet s size]
  have others : ∀ (res : Except AppError Nat) s, s ≠ l.shortUrl.1 →
      (Event.call (.deleteLink l.shortUrl.1) res :: es : Events P).any (deletes s) =
        es.any (deletes s) := by
    intro res s other
    simp [deletes, Ne.symm other]
  apply Along.tryCatch
  apply Along.bind
  apply Along.bind
  apply await_along
  · exact .inr ⟨cleaning.asked, cleaning.listed l List.mem_cons_self⟩
  intro res _ _ _ _ _
  cases res with
  | error e =>
    -- a failed DELETE is logged, and the batch goes on
    refine ⟨⟨false, rfl⟩, cleaning.next rfl (fun _ => List.mem_cons_of_mem _) (fun s size => ?_)
      (others _)⟩
    simp [owes, changes, cleaning.quiet s size]
  | ok n =>
    refine cacheDel_along.mono ?_
    rintro es' r ⟨rfl, refreshed⟩
    refine ⟨⟨true, rfl⟩, cleaning.next refreshed.tried ?_ (fun s size => ?_) fun s other => ?_⟩
    · exact fun e member => refreshed.keeps e (List.mem_cons_of_mem _ member)
    · by_contra owed
      rw [Bool.not_eq_false] at owed
      obtain ⟨other, owed⟩ := refreshed.settled s owed
      rw [unowed _ s size other] at owed
      cases owed
    · exact (refreshed.deleted s).trans (others _ s other)

theorem processBatch_along {rest : List Link} {count : Nat} (cleaning : Cleaning rest es) :
    Along LinkStep (fun es' _ => Cleaning [] es') (CleanupService.processBatch count rest) es := by
  -- over the rows that are left; the count plays no part
  induction rest generalizing es count with
  | nil => exact cleaning
  | cons l rest ih =>
    apply Along.bind
    refine (deleteOneSafely_along cleaning).mono ?_
    rintro es' r ⟨⟨ok, rfl⟩, next⟩
    exact ih next

/-- No two rows of a batch have the same slug. -/
theorem distinct_of_isExpiredBatch {w : World} {now take : Nat} {batch : List Link}
    (answer : w.isExpiredBatch now take batch = true) :
    (batch.map fun l => l.shortUrl.1).Nodup := by
  obtain ⟨nodup, rows, -⟩ := of_decide_eq_true answer
  -- two rows with one slug are one row of the table
  refine List.Nodup.map_on (fun l member l' member' same => ?_) nodup
  have row := (List.mem_filter.mp (rows l member)).1
  have row' := (List.mem_filter.mp (rows l' member')).1
  exact Table.eq_of_key (k := Link.slugKey) (by simp) row row' (congrArg bpchar same)

theorem cleanup_along :
    Along (V := mikrouli P) LinkStep
      (fun es' _ => attempts es' = [] ∧ ∀ s, s.length = SLUG_LENGTH → owes s es' = false)
      CleanupService.handleCleanup [.start .cleanup] := by
  apply Along.bind
  apply await_along
  · trivial
  intro res i ch w w' returned
  obtain ⟨-, rfl⟩ := exec_dateNow returned
  apply Along.bind
  apply await_along
  · exact List.mem_cons_self
  intro res i ch w₁ w' returned
  rcases exec_findExpiredLinks returned with ⟨-, rfl | ⟨batch, rfl, answer⟩⟩
  · exact ⟨rfl, fun s _ => by simp [owes, changes]⟩
  · have cleaning : Cleaning (P := P) batch
        [.call (.findExpiredLinks w.now CLEANUP_BATCH_SIZE) (.ok batch), .call .dateNow (.ok w.now),
          .start .cleanup] := by
      refine ⟨by simp, rfl, fun s _ => by simp [owes, changes], fun l member => ?_, ?_⟩
      · simp only [listed, List.any_cons, lists, deletes]
        simp only [Bool.or_false, List.any_nil, Bool.not_false, Bool.and_true]
        exact List.any_eq_true.mpr ⟨l, member, decide_eq_true rfl⟩
      · exact distinct_of_isExpiredBatch answer
    refine (processBatch_along cleaning).mono fun es' r cleaned => ?_
    exact ⟨cleaned.tried, cleaned.quiet⟩

/-- The commands of a request that does not work on links. -/
theorem linkStep_of_mayIssue {r : Req} (other : r.onLinks = false) {c : Cmd}
    (issued : r.MayIssue c) : LinkStep es c ∧ ∀ res, linkAttempt (P := P) (.call c res) = none := by
  have off : ∀ {p : Prop}, r.onLinks = true → p := fun on => by rw [other] at on; cases on
  cases c with
  | insertLinkWithOutbox fields =>
    have owner : r.linkOwner? = some fields.userId := issued
    cases r <;> first | exact off rfl | cases owner
  | updateLink slug userId url => exact off issued
  | deleteLink slug => exact off issued
  | findExpiredLinks now take => exact off issued
  | redisSet key value ex =>
    rcases issued with ⟨on, -⟩ | ⟨-, family, rfl⟩
    · exact off on
    · exact ⟨.inl ⟨family, rfl⟩, fun _ => rfl⟩
  | _ => exact ⟨trivial, fun _ => rfl⟩

/-- The end of a request that creates no link and resolves none. -/
theorem linkEnd_of_idle {r : Req} {res : Except AppError Ans} (tried : attempts es = [])
    (creates : r.linkOwner? = none) (resolves : ∀ slug, r ≠ .resolve slug)
    (settled : r.refreshing = true → r.StoredForm → ∀ s, s.length = SLUG_LENGTH →
      owes s es = false) : LinkEnd r es res := by
  refine ⟨?_, fun _ => tried, fun slug same => absurd same (resolves slug), settled⟩
  rintro url (⟨user, expiresAt, rfl⟩ | ⟨userId, expiresAt, rfl⟩)
  · cases creates
  · cases creates

theorem idle_along {r : Req} (other : r.onLinks = false) :
    Along (V := mikrouli P) LinkStep (LinkEnd r) (serve P r) [.start r] := by
  -- a request off the links creates none, resolves none and has no cache step to make
  have creates : r.linkOwner? = none := by cases r <;> first | rfl | cases other
  have resolves : ∀ slug, r ≠ .resolve slug := by
    rintro slug rfl
    cases other
  have refreshing : r.refreshing = false := by cases r <;> first | rfl | cases other
  refine Along.of_only (K := fun es => attempts es = []) (serve_only P r) ?_ ?_ rfl
  · intro es c issued tried
    obtain ⟨pre, idle⟩ := linkStep_of_mayIssue other issued
    refine ⟨pre, fun res _ => ?_⟩
    rw [attempts, List.filterMap_cons_none (idle res)]
    exact tried
  · intro es res tried
    refine linkEnd_of_idle tried creates resolves fun refreshes => ?_
    rw [refreshing] at refreshes
    cases refreshes

theorem serve_along (r : Req) :
    Along (V := mikrouli P) LinkStep (LinkEnd r) (serve P r) [.start r] := by
  cases r with
  | createLink user url expiresAt =>
    apply Along.map
    have creating : Creating (P := P) user.id url 0 [.start (.createLink user url expiresAt)] :=
      ⟨by simp [asksLink], rfl, fun s => by simp [owes, changes], fun s => rfl⟩
    -- the cache step comes with it, so nothing stays owed
    refine (controllerCreate_along creating).mono fun es r settles => ?_
    refine ⟨?_, fun none => (by cases none), fun slug same => (by cases same),
      fun _ _ => settles.2⟩
    rintro url' (⟨_, _, same⟩ | ⟨_, _, same⟩)
    · cases same
      exact settles.1
    · cases same
  | createShortLink userId url expiresAt =>
    apply Along.bind
    have creating : Creating (P := P) userId url 0 [.start (.createShortLink userId url expiresAt)] :=
      ⟨by simp [asksLink], rfl, fun s => by simp [owes, changes], fun s => rfl⟩
    -- the tool creates without a cache step
    refine (create_along creating).mono fun es r inserts => ?_
    have ends : ∀ res : Except AppError Ans, CreationEnds url es res →
        LinkEnd (.createShortLink userId url expiresAt) es res := by
      intro res ends
      refine ⟨?_, fun none => (by cases none), fun slug same => (by cases same),
        fun refreshes => by cases refreshes⟩
      rintro url' (⟨_, _, same⟩ | ⟨_, _, same⟩)
      · cases same
      · cases same
        exact ends
    cases r with
    | error e => exact ends (.error e) inserts.1
    | ok l =>
      obtain ⟨k, few, fields, es₀, before, rfl, dest⟩ := inserts
      refine ends (.ok _) ⟨k, few, l, ?_, dest, rfl⟩
      exact congrArg (List.cons (.ok l)) before.tried
  | updateLink userId slug url =>
    apply Along.map
    refine update_along.mono fun es r settles => ?_
    exact linkEnd_of_idle settles.1 rfl (by simp) fun _ form => settles.2 (form slug rfl)
  | removeLink userId slug =>
    apply Along.map
    refine remove_along.mono fun es r settles => ?_
    exact linkEnd_of_idle settles.1 rfl (by simp) fun _ form => settles.2 (form slug rfl)
  | resolve slug =>
    apply Along.map
    refine resolve_along.mono fun es r resolves => ?_
    obtain ⟨tried, ends, quiet⟩ := resolves
    refine ⟨?_, fun _ => tried, ?_, fun _ _ s _ => quiet s⟩
    · rintro url (⟨_, _, same⟩ | ⟨_, _, same⟩) <;> cases same
    · rintro slug' same
      cases same
      exact ends
  | cleanup =>
    apply Along.map
    refine cleanup_along.mono fun es r cleaned => ?_
    exact linkEnd_of_idle cleaned.1 rfl (by simp) fun _ _ => cleaned.2
  | _ => exact idle_along rfl

end Requests

/-! ### The contract -/

section Contract

variable {G : Guard (mikrouli P)}

theorem links_sound : (links P).Sound G := Contract.ofHistory_sound serve_along

theorem links_holds {w₀ : World} {c : Config (mikrouli P)} (reach : Reach G (initial w₀) c) :
    (links P).Holds G c := (Contract.ofHistory_holds w₀).reach links_sound reach

end Contract

end Mikrouli
