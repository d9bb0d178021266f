import Mikrouli.Properties.LinkCache
import Mikrouli.Properties.LinkSteps

/-! When the link cache agrees with the database once every request has been answered. -/

namespace Mikrouli

open Async Store

variable {P : Platform}

/-! ### Accesses and changes -/

/-- The event tells the thread what the row under a slug is: it read, inserted or updated it. -/
def accesses (slugKey : String) : Event (mikrouli P) → Bool
  | .call (.findLink slug) (.ok (some (_ : Link))) => decide (bpchar slug = slugKey)
  | .call (.insertLinkWithOutbox _) (.ok (l : Link)) => decide (l.slugKey = slugKey)
  | .call (.updateLink slug _ _) (.ok (n : Nat)) => decide (bpchar slug = slugKey ∧ n ≠ 0)
  | _ => false

/-- What has happened since thread `i` last knew the row under a slug. -/
def since (σ : Shared (mikrouli P)) (i : Nat) (slugKey : String) : List (Entry (mikrouli P)) :=
  σ.log.takeWhile fun e => !(decide (e.thread = i) && accesses slugKey e.event)

/-- Someone has changed the row under a slug since thread `i` last knew it. -/
def Overtaken (σ : Shared (mikrouli P)) (i : Nat) (slugKey : String) : Prop :=
  ∃ e ∈ since σ i slugKey, changes slugKey e.event = true

/-- The row under a slug is the user's and has this destination. -/
def RowIs (w : World) (slugKey : String) (v : String × String) : Prop :=
  ∃ l ∈ w.links.rows, l.slugKey = slugKey ∧ (l.userId, l.originalUrl) = v

section Accesses

variable {σ : Shared (mikrouli P)} {i j : Nat} {slugKey : String} {e : Event (mikrouli P)}
  {c : Cmd} {ch : Choice} {w w' : World} {res : Except AppError c.Res}

theorem since_called (idle : j ≠ i ∨ accesses (P := P) slugKey (.call c res) = false) :
    since (σ.called i c res w) j slugKey = ⟨i, .call c res, w⟩ :: since σ j slugKey := by
  rw [since, Shared.called, List.takeWhile_cons_of_pos]
  · rfl
  · rcases idle with other | idle
    · simp [other.symm]
    · simp [idle]

theorem Overtaken.called (overtaken : Overtaken σ j slugKey)
    (idle : j ≠ i ∨ accesses (P := P) slugKey (.call c res) = false) :
    Overtaken (σ.called i c res w) j slugKey := by
  obtain ⟨e, member, changed⟩ := overtaken
  refine ⟨e, ?_, changed⟩
  rw [since_called idle]
  exact List.mem_cons_of_mem _ member

theorem overtaken_called_of_changes (idle : j ≠ i ∨ accesses (P := P) slugKey (.call c res) = false)
    (changed : changes (P := P) slugKey (.call c res) = true) :
    Overtaken (σ.called i c res w) j slugKey := by
  refine ⟨⟨i, .call c res, w⟩, ?_, changed⟩
  rw [since_called idle]
  exact List.mem_cons_self

theorem exists_sees_of_accesses (access : accesses slugKey e = true) :
    ∃ v, sees slugKey e = some v := by
  unfold accesses at access
  split at access
  next slug l =>
    have same : bpchar slug = slugKey := of_decide_eq_true access
    exact ⟨(l.userId, l.originalUrl), if_pos same⟩
  next fields l =>
    have same : l.slugKey = slugKey := of_decide_eq_true access
    exact ⟨(l.userId, l.originalUrl), if_pos same⟩
  -- an UPDATE tells its destination whether or not it hit a row
  next slug userId url n =>
    have same : bpchar slug = slugKey ∧ n ≠ 0 := of_decide_eq_true access
    exact ⟨(userId, url), if_pos same.1⟩
  · cases access

/-- A change that tells the thread nothing of the row is a DELETE. -/
theorem accesses_or_deletes (changed : changes slugKey e = true) :
    accesses slugKey e = true ∨ ∃ slug, deletes slug e = true := by
  unfold changes at changed
  split at changed
  · exact .inl changed
  · exact .inl changed
  next slug n => exact .inr ⟨slug, decide_eq_true rfl⟩
  · cases changed

/-- Without a change told by the event, the row under a slug stays. -/
theorem row_kept (returned : exec P i c ch w = some (res, w'))
    (silent : changes (P := P) slugKey (.call c res) = false) {r : Link}
    (member : r ∈ w.links.rows) (key : r.slugKey = slugKey) : r ∈ w'.links.rows := by
  cases c with
  | insertLinkWithOutbox fields =>
    rcases exec_insertLinkWithOutbox returned with ⟨rfl, -⟩ | ⟨link, links, -, inserted, -, rfl⟩
    · exact member
    · rw [show _ = links.rows from rfl, (Table.insert?_eq_some.mp inserted).2]
      exact List.mem_cons_of_mem _ member
  | updateLink slug userId url =>
    rcases exec_updateLink returned with ⟨rfl, -⟩ | ⟨n, rfl, rfl⟩
    · exact member
    · refine World.mem_setOriginalUrl.mpr ⟨r, member, if_neg ?_⟩
      rintro ⟨hit, owner⟩
      -- an UPDATE of this row would have counted it
      have positive : n ≠ 0 := (hit_of_updateLink returned).mpr ⟨r, member, hit, owner⟩
      have unchanged := of_decide_eq_false silent
      exact unchanged ⟨hit.symm.trans key, positive⟩
  | deleteLink slug =>
    rcases exec_deleteLink returned with ⟨rfl, -⟩ | ⟨n, rfl, rfl⟩
    · exact member
    · refine Table.mem_delete.mpr ⟨member, decide_eq_false fun hit => ?_⟩
      -- so would a DELETE
      have positive : n ≠ 0 := (hit_of_deleteLink returned).mpr ⟨r, member, hit⟩
      have unchanged := of_decide_eq_false silent
      exact unchanged ⟨hit.symm.trans key, positive⟩
  | _ =>
    rw [(exec_frame returned).links rfl]
    exact member

end Accesses

/-! ### Runs -/

/-- Only resolves, creations, PATCHes, DELETEs and cleanups, and no Redis command fails. -/
def linkTraffic (P : Platform) : Guard (mikrouli P) := fun _ a =>
  match a with
  | .start r => r.refreshing = true
  | .call _ c ch => c.onRedis = true → ch.fault = none
  | .env _ => True

/-- Slugs are given in the form they are stored in. -/
def storedForms (P : Platform) : Guard (mikrouli P) := fun _ a =>
  match a with
  | .start r => r.StoredForm
  | _ => True

/-- Who caches a row that was changed since they knew it has a change before them whose own cache
step is still to come. -/
def lastWord (P : Platform) : Guard (mikrouli P) := fun σ a =>
  match a with
  | .call i (.redisSet key _ _) _ => ∀ slug, key = LinkCacheService.cacheKey slug →
      ∀ e ∈ since σ i (bpchar slug), changes (bpchar slug) e.event = true →
        owes slug (σ.own e.thread) = true
  | _ => True

/-- All three. -/
def settling (P : Platform) : Guard (mikrouli P) := fun σ a =>
  linkTraffic P σ a ∧ storedForms P σ a ∧ lastWord P σ a

/-- What the cache holds for a slug is the destination of the row the slug has. -/
def CacheAgrees (w : World) : Prop :=
  ∀ slug url, w.redis.get w.now (LinkCacheService.cacheKey slug) = some url →
    ∃ l, w.link? slug = some l ∧ l.originalUrl = url

/-! ### The invariant -/

/-- An entry of the cache has the row's destination or is about to be replaced, and what a thread
last saw of a row is still so unless it has been overtaken. -/
structure Tracked (σ : Shared (mikrouli P)) : Prop where
  form : ∀ i r, .start r ∈ σ.own i → r.refreshing = true ∧ r.StoredForm
  entries : ∀ slug e, σ.world.redis (LinkCacheService.cacheKey slug) = some e →
    slug.length = SLUG_LENGTH ∧ ((∃ userId, RowIs σ.world (bpchar slug) (userId, e.value)) ∨
      ∃ j, owes slug (σ.own j) = true)
  views : ∀ i slugKey v, seen slugKey (σ.own i) = some v →
    RowIs σ.world slugKey v ∨ Overtaken σ i slugKey

section Tracked

variable {σ : Shared (mikrouli P)} {i j : Nat} {c : Cmd} {ch : Choice} {w : World}
  {res : Except AppError c.Res} {slug slugKey : String} {v : String × String}

theorem RowIs.called (row : RowIs σ.world slugKey v)
    (returned : exec P i c ch σ.world = some (res, w))
    (idle : j ≠ i ∨ accesses (P := P) slugKey (.call c res) = false) :
    RowIs w slugKey v ∨ Overtaken (σ.called i c res w) j slugKey := by
  obtain ⟨l, member, key, same⟩ := row
  cases changed : changes (P := P) slugKey (.call c res) with
  | false => exact .inl ⟨l, row_kept returned changed member key, key, same⟩
  | true => exact .inr (overtaken_called_of_changes idle changed)

/-- A thread that knows a row by its own access has it before it. -/
theorem rowIs_of_access (returned : exec P i c ch σ.world = some (res, w))
    (access : accesses (P := P) slugKey (.call c res) = true)
    (saw : sees (P := P) slugKey (.call c res) = some v) : RowIs w slugKey v := by
  cases c with
  | findLink slug =>
    rcases exec_findLink returned with ⟨rfl, rfl | rfl⟩
    · cases access
    · cases row : σ.world.link? slug with
      | none =>
        rw [row] at access
        cases access
      | some l =>
        rw [row] at saw access
        have same : bpchar slug = slugKey := of_decide_eq_true access
        obtain ⟨member, key⟩ := World.link?_eq_some.mp row
        simp only [sees, same, ↓reduceIte, Option.some.injEq] at saw
        exact ⟨l, member, key.trans same, saw⟩
  | insertLinkWithOutbox fields =>
    rcases exec_insertLinkWithOutbox returned with ⟨-, e, rfl⟩ | ⟨l, links, rfl, inserted, -, rfl⟩
    · cases access
    · have key : l.slugKey = slugKey := of_decide_eq_true access
      simp only [sees, key, ↓reduceIte, Option.some.injEq] at saw
      refine ⟨l, ?_, key, saw⟩
      rw [show _ = links.rows from rfl, (Table.insert?_eq_some.mp inserted).2]
      exact List.mem_cons_self
  | updateLink slug userId url =>
    rcases exec_updateLink returned with ⟨-, rfl⟩ | ⟨n, rfl, rfl⟩
    · cases access
    · obtain ⟨same, positive⟩ : bpchar slug = slugKey ∧ n ≠ 0 := of_decide_eq_true access
      -- the row that was counted is the one with the new destination
      obtain ⟨r, member, hit, owner⟩ := (hit_of_updateLink returned).mp positive
      simp only [sees, same, ↓reduceIte, Option.some.injEq] at saw
      refine ⟨{ r with originalUrl := url }, ?_, hit.trans same, ?_⟩
      · exact World.mem_setOriginalUrl.mpr ⟨r, member, if_pos ⟨hit, owner⟩⟩
      · rw [← saw, ← owner]
  | _ => cases access

/-- What a thread sees without an access is what an UPDATE that hit nothing was to write; the row
it had seen before must have been changed. -/
theorem overtaken_of_missed (tracked : Tracked σ) (step : LinkStep (σ.own i) c)
    (returned : exec P i c ch σ.world = some (res, w))
    (idle : accesses (P := P) slugKey (.call c res) = false)
    (saw : sees (P := P) slugKey (.call c res) = some v) : Overtaken σ i slugKey := by
  cases c with
  | findLink slug =>
    rcases exec_findLink returned with ⟨-, rfl | rfl⟩
    · cases saw
    · cases row : σ.world.link? slug with
      | none =>
        rw [row] at saw
        cases saw
      | some l =>
        rw [row] at saw idle
        have other : bpchar slug ≠ slugKey := of_decide_eq_false idle
        simp [sees, other] at saw
  | insertLinkWithOutbox fields =>
    rcases exec_insertLinkWithOutbox returned with ⟨-, e, rfl⟩ | ⟨l, links, rfl, inserted, -, rfl⟩
    · cases saw
    · have other : l.slugKey ≠ slugKey := of_decide_eq_false idle
      simp [sees, other] at saw
  | updateLink slug userId url =>
    rcases exec_updateLink returned with ⟨-, rfl⟩ | ⟨n, rfl, -⟩
    · cases saw
    · have missed : ¬(bpchar slug = slugKey ∧ n ≠ 0) := of_decide_eq_false idle
      by_cases same : bpchar slug = slugKey
      -- the thread had seen the row, as the user's, before its UPDATE
      · obtain ⟨-, url', before⟩ := step
        rw [same] at before
        rcases tracked.views i slugKey _ before with ⟨l, member, key, owner⟩ | overtaken
        -- were the row still so, the UPDATE would have hit it
        · simp only [Prod.mk.injEq] at owner
          have positive : n ≠ 0 :=
            (hit_of_updateLink returned).mpr ⟨l, member, key.trans same.symm, owner.1⟩
          exact absurd ⟨same, positive⟩ missed
        · exact overtaken
      · simp [sees, same] at saw
  | _ => cases saw

theorem Tracked.views_called (tracked : Tracked σ) (step : LinkStep (σ.own i) c)
    (returned : exec P i c ch σ.world = some (res, w))
    (saw : seen slugKey ((σ.called i c res w).own j) = some v) :
    RowIs w slugKey v ∨ Overtaken (σ.called i c res w) j slugKey := by
  have kept : seen slugKey (σ.own j) = some v →
      (j ≠ i ∨ accesses (P := P) slugKey (.call c res) = false) →
      RowIs w slugKey v ∨ Overtaken (σ.called i c res w) j slugKey := by
    intro before idle
    rcases tracked.views j slugKey v before with row | overtaken
    · exact row.called returned idle
    · exact .inr (overtaken.called idle)
  -- a step of the thread's own, by whether it got to know the row; or another thread's
  by_cases own : j = i
  · subst own
    rw [Shared.called_own_self, seen, List.findSome?_cons] at saw
    cases access : accesses (P := P) slugKey (.call c res) with
    | true =>
      cases told : sees (P := P) slugKey (.call c res) with
      | some v' =>
        rw [told] at saw
        cases saw
        exact .inl (rowIs_of_access returned access told)
      | none =>
        obtain ⟨v', told'⟩ := exists_sees_of_accesses access
        rw [told] at told'
        cases told'
    | false =>
      cases told : sees (P := P) slugKey (.call c res) with
      | some v' =>
        have overtaken := overtaken_of_missed tracked step returned access told
        exact .inr (overtaken.called (.inr access))
      | none =>
        rw [told] at saw
        exact kept saw (.inr access)
  · rw [Shared.called_own_of_ne own] at saw
    exact kept saw (.inl own)

/-- Thread `i` caches what it last saw of the row; whoever has overtaken it owes the cache step. -/
theorem Tracked.entry_set (tracked : Tracked σ) {value : String} {ex : Option Nat}
    (step : LinkStep (σ.own i) (.redisSet (LinkCacheService.cacheKey slug) value ex))
    (allowed : lastWord P σ (.call i (.redisSet (LinkCacheService.cacheKey slug) value ex) ch)) :
    slug.length = SLUG_LENGTH ∧ ((∃ userId, RowIs σ.world (bpchar slug) (userId, value)) ∨
      ∃ j ≠ i, owes slug (σ.own j) = true) := by
  rcases step with ⟨family, key⟩ | ⟨slug', l, holds, key, rfl, -, saw, keeps⟩
  · exact absurd key (cacheKey_ne_buildRevocationKey slug family)
  cases cacheKey_inj key
  constructor
  · cases holds with
    -- a slug that was read from a row, or asked for in its stored form
    | created inserted => exact l.shortUrl.2
    | @edited slug₀ url l₀ n found updated => exact l₀.shortUrl.2
    | read asked found => exact (tracked.form i _ asked).2 slug rfl
  · rcases tracked.views i (bpchar slug) _ saw with row | ⟨e, member, changed⟩
    · exact .inl ⟨l.userId, row⟩
    · refine .inr ⟨e.thread, fun own => ?_, allowed slug rfl e member changed⟩
      -- what the thread itself did since is no access, so it would be a DELETE, and it made none
      have logged : e ∈ σ.log := (List.takeWhile_sublist _).subset member
      have mine : e.event ∈ σ.own i :=
        List.mem_map.mpr ⟨e, List.mem_filter.mpr ⟨logged, decide_eq_true own⟩, rfl⟩
      rcases accesses_or_deletes changed with access | ⟨slug', deleted⟩
      · have kept := List.mem_takeWhile_imp member
        simp [own, access] at kept
      · have some : (σ.own i).any (deletes slug') = true := List.any_eq_true.mpr ⟨_, mine, deleted⟩
        rw [keeps] at some
        cases some

/-- A cache step without a fault leaves the entry it has set, or none. -/
theorem entry_of_refreshes (returned : exec P i c ch σ.world = some (res, w))
    (traffic : c.onRedis = true → ch.fault = none)
    (refreshed : refreshes (P := P) slug (.call c res) = true) {e : Stamped String}
    (after : w.redis (LinkCacheService.cacheKey slug) = some e) :
    w.links = σ.world.links ∧ ∃ ex, c = .redisSet (LinkCacheService.cacheKey slug) e.value ex := by
  unfold refreshes at refreshed
  split at refreshed
  next key value ex res' same =>
    simp only [Event.call.injEq] at same
    obtain ⟨rfl, -⟩ := same
    have key : key = LinkCacheService.cacheKey slug := of_decide_eq_true refreshed
    subst key
    rcases exec_redisSet returned with ⟨faulty, -⟩ | ⟨-, -, rfl⟩
    · exact absurd (traffic rfl) faulty
    · have stored : σ.world.redis.set σ.world.now (LinkCacheService.cacheKey slug) value ex
          (LinkCacheService.cacheKey slug) = some e := after
      rw [Expiring.set_self] at stored
      cases stored
      exact ⟨rfl, ex, rfl⟩
  next key res' same =>
    simp only [Event.call.injEq] at same
    obtain ⟨rfl, -⟩ := same
    have key : key = LinkCacheService.cacheKey slug := of_decide_eq_true refreshed
    subst key
    rcases exec_redisDel returned with ⟨faulty, -⟩ | ⟨-, -, rfl⟩
    · exact absurd (traffic rfl) faulty
    · have gone : σ.world.redis.del (LinkCacheService.cacheKey slug)
          (LinkCacheService.cacheKey slug) = some e := after
      rw [Expiring.del_self] at gone
      cases gone
  · cases refreshed

theorem Tracked.entries_called (tracked : Tracked σ) (step : LinkStep (σ.own i) c)
    (returned : exec P i c ch σ.world = some (res, w)) (allowed : settling P σ (.call i c ch))
    {e : Stamped String} (after : w.redis (LinkCacheService.cacheKey slug) = some e) :
    slug.length = SLUG_LENGTH ∧ ((∃ userId, RowIs w (bpchar slug) (userId, e.value)) ∨
      ∃ j, owes slug ((σ.called i c res w).own j) = true) := by
  obtain ⟨traffic, -, last⟩ := allowed
  cases refreshed : refreshes (P := P) slug (.call c res) with
  | true =>
    -- the step set the entry, to what its thread saw of the row
    obtain ⟨links, ex, rfl⟩ := entry_of_refreshes returned traffic refreshed after
    obtain ⟨size, settled⟩ := tracked.entry_set step last
    refine ⟨size, ?_⟩
    rcases settled with ⟨userId, row⟩ | ⟨j, other, owed⟩
    · refine .inl ⟨userId, ?_⟩
      rw [RowIs, links]
      exact row
    · refine .inr ⟨j, ?_⟩
      rw [Shared.called_own_of_ne other]
      exact owed
  | false =>
    -- the entry is an old one: whoever changes its row now owes the cache step
    have before : σ.world.redis (LinkCacheService.cacheKey slug) = some e := by
      rcases entry_origin (P := P) returned after with before | ⟨value, ex, rfl, -, -⟩
      · exact before
      · exact absurd rfl (of_decide_eq_false refreshed)
    obtain ⟨size, settled⟩ := tracked.entries slug e before
    refine ⟨size, ?_⟩
    have own : owes slug ((σ.called i c res w).own i) =
        (changes (P := P) (bpchar slug) (.call c res) || owes slug (σ.own i)) := by
      rw [Shared.called_own_self, owes, refreshed, Bool.not_false, Bool.true_and]
    rcases settled with ⟨userId, l, member, key, same⟩ | ⟨j, owed⟩
    · cases changed : changes (P := P) (bpchar slug) (.call c res) with
      | false => exact .inl ⟨userId, l, row_kept returned changed member key, key, same⟩
      | true =>
        refine .inr ⟨i, ?_⟩
        rw [own, changed, Bool.true_or]
    · refine .inr ⟨j, ?_⟩
      by_cases mine : j = i
      · subst mine
        rw [own, owed, Bool.or_true]
      · rw [Shared.called_own_of_ne mine]
        exact owed

theorem Tracked.acts {σ' : Shared (mikrouli P)} (acts : (links P).Acts (settling P) σ σ')
    (tracked : Tracked σ) : Tracked σ' := by
  cases acts with
  | @call i c ch res w step returned allowed =>
    constructor
    case form => exact fun j r started => tracked.form j r (Shared.start_mem_own_called.mp started)
    case entries => exact fun slug e after => tracked.entries_called step returned allowed after
    case views => exact fun j slugKey v saw => tracked.views_called step returned saw
  | env ms _ => exact ⟨tracked.form, tracked.entries, tracked.views⟩
  | start n r fresh allowed =>
    constructor
    case form =>
      intro j q started
      rcases Shared.mem_own_started.mp started with ⟨-, same⟩ | before
      · cases same
        exact ⟨allowed.1, allowed.2.1⟩
      · exact tracked.form j q before
    case entries =>
      intro slug e stored
      obtain ⟨size, settled⟩ := tracked.entries slug e stored
      refine ⟨size, settled.imp_right ?_⟩
      rintro ⟨j, owed⟩
      refine ⟨j, ?_⟩
      -- a thread that has just begun owes nothing
      have other : j ≠ n := by
        rintro rfl
        rw [fresh] at owed
        cases owed
      rw [Shared.started_own_of_ne other]
      exact owed
    case views =>
      intro j slugKey v saw
      by_cases new : j = n
      · subst new
        rw [Shared.started_own_self, fresh] at saw
        cases saw
      · rw [Shared.started_own_of_ne new] at saw
        refine (tracked.views j slugKey v saw).imp_right ?_
        rintro ⟨e, member, changed⟩
        refine ⟨e, ?_, changed⟩
        rw [since, Shared.started, List.takeWhile_cons_of_pos (by simp [accesses])]
        exact List.mem_cons_of_mem _ member

theorem tracked_initial {w₀ : World}
    (cold : ∀ slug, w₀.redis (LinkCacheService.cacheKey slug) = none) :
    Tracked (P := P) ⟨w₀, []⟩ := by
  constructor
  case form => exact fun i r started => by cases started
  case entries =>
    intro slug e stored
    change w₀.redis _ = some e at stored
    rw [cold] at stored
    cases stored
  case views => exact fun i slugKey v saw => by cases saw

end Tracked

/-! ### Quiescence -/

/-- No request that has been answered still owes a cache step. -/
theorem settled_of_quiescent {w₀ : World} {c : Config (mikrouli P)}
    (reach : Reach (settling P) (initial w₀) c) (tracked : Tracked c.shared)
    (quiescent : c.Quiescent) {slug : String} (size : slug.length = SLUG_LENGTH) (i : Nat) :
    owes slug (c.shared.own i) = false := by
  have holds : (links P).Holds (settling P) c := links_holds reach
  cases thread : c.threads[i]? with
  | none =>
    have idle : c.shared.own i = [] := by
      apply Shared.own_eq_nil_of_not_mem
      intro logged
      obtain ⟨e, member, rfl⟩ := List.mem_map.mp logged
      have bound := holds.logged e member
      rw [List.getElem?_eq_getElem bound] at thread
      cases thread
    rw [idle]
    rfl
  | some t =>
    obtain ⟨r, p⟩ := t
    -- whoever owes a cache step has not ended
    have ended : p.Ended := quiescent (r, p) (List.mem_of_getElem? thread)
    obtain ⟨refreshing, form⟩ :=
      tracked.form i r ((asked_iff_started reach i r).mp ⟨p, thread⟩)
    cases p with
    | done a => exact (holds.history_ok thread).settled refreshing form slug size
    | fail e => exact (holds.history_error thread).settled refreshing form slug size
    | await cmd k => cases ended

/-- From a cold cache, in every run of these five requests in which no Redis command fails, slugs
are given in their stored form, and nobody caches a row over the head of a request that has
changed it meanwhile and made its own cache step: once every request has been answered, each
cached value is the destination of its slug's row. -/
theorem cache_agrees_at_quiescence {w₀ : World} {c : Config (mikrouli P)}
    (cold : ∀ slug, w₀.redis (LinkCacheService.cacheKey slug) = none)
    (reach : Reach (settling P) (initial w₀) c) (quiescent : c.Quiescent) :
    CacheAgrees c.shared.world := by
  have tracked : Tracked c.shared := (Contract.ofHistory_holds w₀).invariant links_sound
    (fun _ _ _ acts tracked => tracked.acts acts) (tracked_initial cold) reach
  intro slug url cached
  obtain ⟨e, stored, -, rfl⟩ := Expiring.get_eq_some.mp cached
  obtain ⟨size, ⟨userId, l, member, key, same⟩ | ⟨j, owed⟩⟩ := tracked.entries slug e stored
  · simp only [Prod.mk.injEq] at same
    exact ⟨l, World.link?_eq_some.mpr ⟨member, key⟩, same.2⟩
  -- nobody is left to replace the entry, so its row agrees
  · rw [settled_of_quiescent reach tracked quiescent size] at owed
    cases owed

/-! ### Concrete runs -/

section Runs

variable {σ : Shared (mikrouli P)} {a : Act (mikrouli P)}

def isLinkTraffic (_ : Shared (mikrouli P)) : Act (mikrouli P) → Bool
  | .start r => r.refreshing
  | .call _ c ch => !c.onRedis || decide (ch.fault = none)
  | .env _ => true

theorem linkTraffic_of_isLinkTraffic (σ : Shared (mikrouli P)) (a : Act (mikrouli P))
    (test : isLinkTraffic σ a = true) : linkTraffic P σ a := by
  cases a with
  | start r => exact test
  | call i c ch =>
    intro onRedis
    simp only [isLinkTraffic, onRedis, Bool.not_true, Bool.false_or] at test
    exact of_decide_eq_true test
  | env ms => trivial

def isStoredForms (_ : Shared (mikrouli P)) : Act (mikrouli P) → Bool
  | .start r => r.slug?.all fun slug => decide (slug.length = SLUG_LENGTH)
  | _ => true

theorem storedForms_of_isStoredForms (σ : Shared (mikrouli P)) (a : Act (mikrouli P))
    (test : isStoredForms σ a = true) : storedForms P σ a := by
  cases a with
  | start r =>
    intro slug given
    have sized : (r.slug?.all fun slug => decide (slug.length = SLUG_LENGTH)) = true := test
    rw [given] at sized
    exact of_decide_eq_true sized
  | _ => trivial

def isLastWord (σ : Shared (mikrouli P)) : Act (mikrouli P) → Bool
  | .call i (.redisSet key _ _) _ =>
    let slug := String.ofList (key.toList.drop 5)
    (since σ i (bpchar slug)).all fun e =>
      !changes (bpchar slug) e.event || owes slug (σ.own e.thread)
  | _ => true

theorem lastWord_of_isLastWord (σ : Shared (mikrouli P)) (a : Act (mikrouli P))
    (test : isLastWord σ a = true) : lastWord P σ a := by
  cases a with
  | call i c ch =>
    cases c with
    | redisSet key value ex =>
      rintro slug rfl e member changed
      have named : String.ofList ((LinkCacheService.cacheKey slug).toList.drop 5) = slug := by
        simp [LinkCacheService.cacheKey, CACHE_PREFIX]
      have all := List.all_eq_true.mp test
      rw [named] at all
      simpa [changed] using all e member
    | _ => trivial
  | _ => trivial

end Runs

/-- A guest link under the slug `abcdef`, up to its cache step. -/
def uncachedLink : List (Move (mikrouli Platform.plain)) :=
  [.start (.createLink ⟨"a", true⟩ "https://ab.cd" (some none)), .run 0 { draw := "abcdef" },
   .run 0 {}]

def holdsEntry (w : World) : Bool :=
  decide (w.redis.get w.now (LinkCacheService.cacheKey "abcdef") = some "https://ab.cd")

/-- A link is created, cached, and resolved from the cache. -/
theorem cache_agrees_at_quiescence_resolved :
    ∃ c : Config (mikrouli Platform.plain), c.Quiescent ∧ holdsEntry c.shared.world = true ∧
      CacheAgrees c.shared.world := by
  obtain ⟨c, reach, passed⟩ := exists_reach_of_play
    (and_of_bothReady linkTraffic_of_isLinkTraffic
      (and_of_bothReady storedForms_of_isStoredForms lastWord_of_isLastWord))
    (initial (V := mikrouli Platform.plain) (World.empty 5000))
    (uncachedLink ++ [.run 0 {}, .start (.resolve "abcdef"), .run 1 {}])
    (fun c => decide c.Quiescent && holdsEntry c.shared.world) (by decide +kernel)
  rw [Bool.and_eq_true] at passed
  have quiescent := of_decide_eq_true passed.1
  exact ⟨c, quiescent, passed.2, cache_agrees_at_quiescence (fun _ => rfl) reach quiescent⟩

/-- Nothing is running, and the entry has outlived its row. -/
def endsStale (c : Config (mikrouli Platform.plain)) : Bool :=
  decide c.Quiescent && (holdsEntry c.shared.world &&
    decide (c.shared.world.link? "abcdef" = none))

theorem not_cacheAgrees_of_endsStale {c : Config (mikrouli Platform.plain)}
    (stale : endsStale c = true) : c.Quiescent ∧ ¬CacheAgrees c.shared.world := by
  simp only [endsStale, Bool.and_eq_true, decide_eq_true_eq] at stale
  obtain ⟨quiescent, held, gone⟩ := stale
  refine ⟨quiescent, fun agrees => ?_⟩
  obtain ⟨l, row, -⟩ := agrees "abcdef" "https://ab.cd" (of_decide_eq_true held)
  rw [gone] at row
  cases row

/-- A resolve reads the row before a DELETE and caches it after; and a DELETE whose slug has a
blank too many finds the row but not the entry. -/
theorem stale_entry_at_quiescence :
    (¬∀ (P : Platform) (w₀ : World) (c : Config (mikrouli P)),
      (∀ slug, w₀.redis (LinkCacheService.cacheKey slug) = none) →
      Reach (fun σ a => linkTraffic P σ a ∧ storedForms P σ a) (initial w₀) c → c.Quiescent →
      CacheAgrees c.shared.world) ∧
    ¬∀ (P : Platform) (w₀ : World) (c : Config (mikrouli P)),
      (∀ slug, w₀.redis (LinkCacheService.cacheKey slug) = none) →
      Reach (fun σ a => linkTraffic P σ a ∧ lastWord P σ a) (initial w₀) c → c.Quiescent →
      CacheAgrees c.shared.world := by
  constructor
  · intro agrees
    obtain ⟨c, reach, passed⟩ := exists_reach_of_play
      (and_of_bothReady linkTraffic_of_isLinkTraffic storedForms_of_isStoredForms)
      (initial (V := mikrouli Platform.plain) (World.empty 5000))
      (uncachedLink ++ [.start (.resolve "abcdef"), .run 1 {}, .run 1 {}, .run 0 {},
        .start (.removeLink "a" "abcdef"), .run 2 {}, .run 2 {}, .run 2 {}, .run 1 {}])
      endsStale (by decide +kernel)
    obtain ⟨quiescent, stale⟩ := not_cacheAgrees_of_endsStale passed
    exact stale (agrees _ _ c (fun _ => rfl) reach quiescent)
  · intro agrees
    obtain ⟨c, reach, passed⟩ := exists_reach_of_play
      (and_of_bothReady linkTraffic_of_isLinkTraffic lastWord_of_isLastWord)
      (initial (V := mikrouli Platform.plain) (World.empty 5000))
      (uncachedLink ++ [.run 0 {}, .start (.removeLink "a" "abcdef "), .run 1 {}, .run 1 {},
        .run 1 {}])
      endsStale (by decide +kernel)
    obtain ⟨quiescent, stale⟩ := not_cacheAgrees_of_endsStale passed
    exact stale (agrees _ _ c (fun _ => rfl) reach quiescent)

end Mikrouli
