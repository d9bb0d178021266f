import Mikrouli.Model.Commands
import Mikrouli.Model.Footprint

/-! Rules for requests that run on their own while the clock stands still and Redis works. -/

namespace Mikrouli

open Async Store

variable (P : Platform)

def Cmd.asksRedis : Cmd → Bool
  | .redisGet _ | .redisSet _ _ _ | .redisDel _ | .redisGetDel _ => true
  | _ => false

/-- Nothing moves between two commands and no Redis command fails. -/
def standing : Setting (machine P) where
  allow c ch _ := c.asksRedis = true → ch.fault = none
  drift w w' := w' = w

/-- What Redis is told about the life of a cached link. -/
def cacheLife (expiresAt : Option Int) (now : Nat) : Option Nat :=
  (LinkCacheService.ttlSecondsUntil expiresAt now).filter (0 < ·)

/-- The world after a link was cached. -/
def World.cache (w : World) (slug originalUrl : String) (expiresAt : Option Int) : World :=
  { w with redis := w.redis.set w.now (LinkCacheService.cacheKey slug) originalUrl
                      (cacheLife expiresAt w.now) }

/-- The world after a cache entry was deleted. -/
def World.evict (w : World) (slug : String) : World :=
  { w with redis := w.redis.del (LinkCacheService.cacheKey slug) }

variable {P} {i : Nat} {w : World}

section Commands

theorem standing_dateNow {Q : Except AppError Nat → World → Prop} (post : Q (.ok w.now) w) :
    Always (machine P) (standing P) i Q (await .dateNow) w := by
  apply Always.perform
  intro w₀ drifted ch res w' allowed returned
  cases drifted
  simp only [machine, exec] at returned
  cases returned
  exact post

theorem standing_generateSlug {Q : Except AppError Char6 → World → Prop}
    (post : ∀ slug, Q (.ok slug) w) :
    Always (machine P) (standing P) i Q (await .generateSlug) w := by
  apply Always.perform
  intro w₀ drifted ch res w' allowed returned
  cases drifted
  simp only [machine, exec] at returned
  split at returned
  · cases returned
  · cases returned; exact post _

theorem standing_findLink {slug : String} {Q : Except AppError (Option Link) → World → Prop}
    (failed : Q (.error .queryFailed) w) (found : Q (.ok (w.link? slug)) w) :
    Always (machine P) (standing P) i Q (await (.findLink slug)) w := by
  apply Always.perform
  intro w₀ drifted ch res w' allowed returned
  cases drifted
  obtain ⟨rfl, rfl | rfl⟩ := exec_findLink returned
  · exact failed
  · exact found

theorem standing_insertLinkWithOutbox {fields : LinkFields}
    {Q : Except AppError Link → World → Prop} (failed : ∀ e, Q (.error e) w)
    (inserted : ∀ link links outbox, w.links.insert? link = some links →
      link = ⟨fields.shortUrl, fields.originalUrl, fields.userId, w.now, fields.expiresAt⟩ →
      Q (.ok link) { w with links := links, outbox := outbox }) :
    Always (machine P) (standing P) i Q (await (.insertLinkWithOutbox fields)) w := by
  apply Always.perform
  intro w₀ drifted ch res w' allowed returned
  cases drifted
  rcases exec_insertLinkWithOutbox returned with ⟨rfl, e, rfl⟩ | ⟨link, links, rfl, fresh, row, rfl⟩
  · exact failed e
  · exact inserted link links _ fresh row

theorem standing_updateLink {slug userId originalUrl : String}
    {Q : Except AppError Nat → World → Prop} (failed : Q (.error .queryFailed) w)
    (updated : ∀ n, Q (.ok n) { w with links := w.setOriginalUrl slug userId originalUrl }) :
    Always (machine P) (standing P) i Q (await (.updateLink slug userId originalUrl)) w := by
  apply Always.perform
  intro w₀ drifted ch res w' allowed returned
  cases drifted
  rcases exec_updateLink returned with ⟨rfl, rfl⟩ | ⟨n, rfl, rfl⟩
  · exact failed
  · exact updated n

theorem standing_deleteLink {slug : String} {Q : Except AppError Nat → World → Prop}
    (failed : Q (.error .queryFailed) w)
    (deleted : ∀ n, Q (.ok n)
      { w with links := w.links.delete fun l => decide (l.slugKey = bpchar slug) }) :
    Always (machine P) (standing P) i Q (await (.deleteLink slug)) w := by
  apply Always.perform
  intro w₀ drifted ch res w' allowed returned
  cases drifted
  rcases exec_deleteLink returned with ⟨rfl, rfl⟩ | ⟨n, rfl, rfl⟩
  · exact failed
  · exact deleted n

theorem standing_findExpiredLinks {now take : Nat}
    {Q : Except AppError (List Link) → World → Prop} (failed : Q (.error .queryFailed) w)
    (found : ∀ batch, Q (.ok batch) w) :
    Always (machine P) (standing P) i Q (await (.findExpiredLinks now take)) w := by
  apply Always.perform
  intro w₀ drifted ch res w' allowed returned
  cases drifted
  obtain ⟨rfl, rfl | ⟨batch, rfl, -⟩⟩ := exec_findExpiredLinks returned
  · exact failed
  · exact found batch

theorem standing_countLinks {userId : String} {monthStart nextMonthStart : Int}
    {Q : Except AppError Nat → World → Prop} (failed : Q (.error .queryFailed) w)
    (counted : Q (.ok (w.links.count fun l => l.createdBy userId monthStart nextMonthStart)) w) :
    Always (machine P) (standing P) i Q
      (await (.countLinks userId monthStart nextMonthStart)) w := by
  apply Always.perform
  intro w₀ drifted ch res w' allowed returned
  cases drifted
  obtain ⟨rfl, rfl | rfl⟩ := exec_countLinks returned
  · exact failed
  · exact counted

theorem standing_findUserById {id : String} {Q : Except AppError (Option User) → World → Prop}
    (failed : Q (.error .queryFailed) w) (found : Q (.ok (w.userById i id)) w) :
    Always (machine P) (standing P) i Q (await (.findUserById id)) w := by
  apply Always.perform
  intro w₀ drifted ch res w' allowed returned
  cases drifted
  obtain ⟨rfl, ⟨-, rfl⟩ | rfl⟩ := exec_findUserById returned
  · exact failed
  · exact found

theorem standing_redisGet {key : String} {Q : Except AppError (Option String) → World → Prop}
    (post : Q (.ok (w.redis.get w.now key)) w) :
    Always (machine P) (standing P) i Q (await (.redisGet key)) w := by
  apply Always.perform
  intro w₀ drifted ch res w' allowed returned
  cases drifted
  obtain ⟨rfl, ⟨faulty, -⟩ | ⟨-, rfl⟩⟩ := exec_redisGet returned
  · exact absurd (allowed rfl) faulty
  · exact post

theorem standing_redisSet {key value : String} {ex : Option Nat}
    {Q : Except AppError Unit → World → Prop}
    (post : Q (.ok ()) { w with redis := w.redis.set w.now key value ex }) :
    Always (machine P) (standing P) i Q (await (.redisSet key value ex)) w := by
  apply Always.perform
  intro w₀ drifted ch res w' allowed returned
  cases drifted
  rcases exec_redisSet returned with ⟨faulty, -, -⟩ | ⟨-, rfl, rfl⟩
  · exact absurd (allowed rfl) faulty
  · exact post

theorem standing_redisDel {key : String} {Q : Except AppError Unit → World → Prop}
    (post : Q (.ok ()) { w with redis := w.redis.del key }) :
    Always (machine P) (standing P) i Q (await (.redisDel key)) w := by
  apply Always.perform
  intro w₀ drifted ch res w' allowed returned
  cases drifted
  rcases exec_redisDel returned with ⟨faulty, -, -⟩ | ⟨-, rfl, rfl⟩
  · exact absurd (allowed rfl) faulty
  · exact post

end Commands

/-! ### Link creation -/

theorem standing_resolveExpiry {explicit : Option (Option Int)}
    {Q : Except AppError (Option Int) → World → Prop}
    (post : Q (.ok (explicit.getD (some (w.now + RETENTION_MS)))) w) :
    Always (machine P) (standing P) i Q (resolveExpiry explicit) w := by
  cases explicit with
  | some expiry => exact post
  | none =>
    apply Always.bind
    exact standing_dateNow post

/-- Slug collisions aside, the retries end with an error or with one inserted row. -/
theorem standing_retryOnSlugConflict {url userId : String} {expiresAt : Option Int}
    {Q : Except AppError Link → World → Prop} (failed : ∀ e, Q (.error e) w)
    (inserted : ∀ link links outbox, w.links.insert? link = some links →
      link.originalUrl = url → link.userId = userId → link.expiresAt = expiresAt →
      Q (.ok link) { w with links := links, outbox := outbox }) (n : Nat) :
    Always (machine P) (standing P) i Q
      (retryOnSlugConflict (LinksService.tryCreate url userId expiresAt) n) w := by
  induction n with
  | zero => exact failed _
  | succ n ih =>
    apply Always.bind
    apply Always.tryCatch
    apply Always.bind
    apply Always.bind
    apply standing_generateSlug
    intro slug
    apply standing_insertLinkWithOutbox
    · intro e
      simp only
      split
      next => exact ih
      next => exact failed e
    · intro link links outbox fresh row
      exact inserted link links outbox fresh (by rw [row]) (by rw [row]) (by rw [row])

theorem standing_createUnmetered {url userId : String} {explicit : Option (Option Int)}
    {Q : Except AppError Link → World → Prop} (failed : ∀ e, Q (.error e) w)
    (inserted : ∀ link links outbox, w.links.insert? link = some links →
      link.originalUrl = url → link.userId = userId →
      link.expiresAt = explicit.getD (some (w.now + RETENTION_MS)) →
      Q (.ok link) { w with links := links, outbox := outbox }) :
    Always (machine P) (standing P) i Q (LinksService.createUnmetered url userId explicit) w := by
  apply Always.bind
  apply standing_resolveExpiry
  exact standing_retryOnSlugConflict failed inserted MAX_SLUG_RETRIES

theorem standing_countLinksThisMonth {userId : String} {Q : Except AppError Nat → World → Prop}
    (failed : Q (.error .queryFailed) w)
    (counted : Q (.ok (w.links.count fun l => l.createdBy userId (getMonthBounds w.now).1
      (getMonthBounds w.now).2)) w) :
    Always (machine P) (standing P) i Q (UsageService.countLinksThisMonth userId) w := by
  apply Always.bind
  apply standing_dateNow
  exact standing_countLinks failed counted

theorem standing_getLinkLimit {userId : String} {Q : Except AppError Int → World → Prop}
    (failed : ∀ e, Q (.error e) w)
    (found : ∀ user, w.userById i userId = some user →
      Q (.ok (UsageService.resolveLinkLimit P user)) w) :
    Always (machine P) (standing P) i Q (UsageService.getLinkLimit P userId) w := by
  apply Always.bind
  apply Always.bind
  apply standing_findUserById
  · exact failed _
  · cases row : w.userById i userId with
    | none => exact failed _
    | some user => exact found user row

/-- The quota gate of `LinksService.create` lets client `i` through. -/
abbrev LinkQuotaLeft (P : Platform) (i : Nat) (w : World) (userId : String) : Prop :=
  ∃ user ∈ w.userById i userId,
    (w.links.count (fun l => l.createdBy userId (getMonthBounds w.now).1
      (getMonthBounds w.now).2) : Int) < UsageService.resolveLinkLimit P user

theorem standing_create {url userId : String} {explicit : Option (Option Int)}
    {Q : Except AppError Link → World → Prop} (failed : ∀ e, Q (.error e) w)
    (inserted : LinkQuotaLeft P i w userId → ∀ link links outbox,
      w.links.insert? link = some links → link.originalUrl = url → link.userId = userId →
      link.expiresAt = explicit.getD (some (w.now + RETENTION_MS)) →
      Q (.ok link) { w with links := links, outbox := outbox }) :
    Always (machine P) (standing P) i Q (LinksService.create P url userId explicit) w := by
  apply Always.bind
  apply standing_countLinksThisMonth
  · exact failed _
  apply Always.bind
  apply standing_getLinkLimit
  · exact failed
  intro user found
  simp only
  split
  next => exact failed _
  next below =>
    exact standing_createUnmetered failed (inserted ⟨user, found, Int.not_le.mp below⟩)

/-! ### The link cache -/

theorem standing_cacheGet {slug : String} {Q : Except AppError (Option String) → World → Prop}
    (post : Q (.ok (w.redis.get w.now (LinkCacheService.cacheKey slug))) w) :
    Always (machine P) (standing P) i Q (LinkCacheService.get slug) w := by
  apply Always.tryCatch
  exact standing_redisGet post

theorem standing_setWithOptionalTtl {key value : String} {ttl : Option Nat}
    {Q : Except AppError Unit → World → Prop}
    (post : Q (.ok ()) { w with redis := w.redis.set w.now key value (ttl.filter (0 < ·)) }) :
    Always (machine P) (standing P) i Q (setWithOptionalTtl key value ttl) w := by
  cases ttl with
  | none => exact standing_redisSet post
  | some n =>
    simp only [setWithOptionalTtl]
    split
    next positive =>
      rw [Option.filter_some_pos (by simpa using positive)] at post
      exact standing_redisSet post
    next zero =>
      rw [Option.filter_some_neg (by simpa using zero)] at post
      exact standing_redisSet post

theorem standing_cacheSet {slug originalUrl : String} {expiresAt : Option Int}
    {Q : Except AppError Unit → World → Prop}
    (post : Q (.ok ()) (w.cache slug originalUrl expiresAt)) :
    Always (machine P) (standing P) i Q (LinkCacheService.set slug originalUrl expiresAt) w := by
  cases expiresAt with
  | none =>
    apply Always.tryCatch
    exact standing_setWithOptionalTtl post
  | some x =>
    apply Always.bind
    apply standing_dateNow
    apply Always.tryCatch
    exact standing_setWithOptionalTtl post

theorem standing_cacheDel {slug : String} {Q : Except AppError Unit → World → Prop}
    (post : Q (.ok ()) (w.evict slug)) :
    Always (machine P) (standing P) i Q (LinkCacheService.del slug) w := by
  apply Always.tryCatch
  exact standing_redisDel post

theorem standing_isExpired {link : Link} {Q : Except AppError Bool → World → Prop}
    (post : Q (.ok (isExpiredAt link.expiresAt w.now)) w) :
    Always (machine P) (standing P) i Q (isExpired link) w := by
  unfold isExpired
  split
  next expiry => rw [expiry] at post; exact post
  next x expiry =>
    rw [expiry] at post
    apply Always.bind
    exact standing_dateNow post

end Mikrouli
