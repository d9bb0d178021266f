import Mikrouli.Model.Stats
import Mikrouli.Properties.Alone
import Mikrouli.Properties.LinkCache

/-! Which cache entry and which clicks a request on one link reaches, for every path parameter
under which the database finds the link. -/

namespace Mikrouli

open Async Store

variable {P : Platform} {i : Nat} {w w' : World} {s userId url : String} {r : Link}

/-- What the settings of this module allow: no command fails. -/
abbrev faultFree (ch : Choice) : Prop := ch.fault = none

/-! ### Commands -/

theorem alone_findLink {Q : Except AppError (Option Link) → World → Prop}
    (read : ∀ ms, Q (.ok (w.link? s)) (w.advance ms)) :
    Always (machine P) (alone P faultFree) i Q (await (.findLink s)) w := by
  apply alone_await
  intro ms ch res w' works returned
  have up : ch.fault = none := works
  simp only [exec, up, Option.isSome_none, Bool.false_eq_true, ↓reduceIte] at returned
  cases returned
  exact read ms

/-- A write to the links table answers and leaves the cache alone. -/
theorem alone_writeLink {c : Cmd} (cache : c.writesRedis = false)
    (answers : ∀ ch w, ch.fault = none → ∃ n w', exec P i c ch w = some (.ok n, w'))
    {Q : Except AppError c.Res → World → Prop}
    (written : ∀ n w', w'.redis = w.redis → w.now ≤ w'.now → Q (.ok n) w') :
    Always (machine P) (alone P faultFree) i Q (await c) w := by
  apply alone_await
  intro ms ch res w' works returned
  obtain ⟨n, w₁, answer⟩ := answers ch (w.advance ms) works
  have frame := exec_frame returned
  cases answer.symm.trans returned
  refine written n w' (frame.redis cache) ?_
  rw [frame.now]
  exact Nat.le_add_right _ _

theorem not_mayFail : ¬MayFail faultFree := by
  rintro ⟨ch, works, fault⟩
  exact fault works

theorem alone_cacheDel {Q : Except AppError Unit → World → Prop}
    (deleted : ∀ w', w'.redis = w.redis.del (LinkCacheService.cacheKey s) → Q (.ok ()) w') :
    Always (machine P) (alone P faultFree) i Q (LinkCacheService.del s) w := by
  apply Always.tryCatch
  refine alone_redisDel (fun fail => absurd fail not_mayFail) fun ms => ?_
  exact deleted _ rfl

/-- However long the entry is to live, it holds the url. -/
theorem alone_cacheSet {slug : String} {expiresAt : Option Int}
    {Q : Except AppError Unit → World → Prop}
    (set : ∀ w' e, w'.redis (LinkCacheService.cacheKey slug) = some e → e.value = url → Q (.ok ()) w') :
    Always (machine P) (alone P faultFree) i Q (LinkCacheService.set slug url expiresAt) w := by
  have write : ∀ {w : World} ex, Always (machine P) (alone P faultFree) i
      (fun r w' => r = .ok () ∧ ∃ e, w'.redis (LinkCacheService.cacheKey slug) = some e ∧
        e.value = url) (await (.redisSet (LinkCacheService.cacheKey slug) url ex)) w := by
    intro w ex
    apply alone_await
    intro ms ch res w' works returned
    rcases exec_redisSet returned with ⟨fault, -, -⟩ | ⟨-, rfl, rfl⟩
    · exact absurd works fault
    · exact ⟨rfl, _, Expiring.set_self _ _ _ _ _, rfl⟩
  have safe : ∀ {w : World} ttl, Always (machine P) (alone P faultFree) i Q
      (safeSet (LinkCacheService.cacheKey slug) url ttl) w := by
    intro w ttl
    apply Always.tryCatch
    -- with or without a time to live, the entry holds the url
    have stored : Always (machine P) (alone P faultFree) i
        (fun r w' => r = .ok () ∧ ∃ e, w'.redis (LinkCacheService.cacheKey slug) = some e ∧
          e.value = url) (setWithOptionalTtl (LinkCacheService.cacheKey slug) url ttl) w := by
      unfold setWithOptionalTtl
      split
      · split <;> exact write _
      · exact write _
    refine stored.mono fun r w' post => ?_
    obtain ⟨rfl, e, entry, value⟩ := post
    exact set w' e entry value
  cases expiresAt with
  | none => exact safe _
  | some x =>
    apply Always.bind
    apply alone_await
    intro ms ch res w₁ _ returned
    obtain ⟨rfl, rfl⟩ := exec_dateNow returned
    exact safe _

/-! ### Handlers -/

theorem alone_getOwnedLink (found : w.link? s = some r) (owned : r.userId = userId)
    {Q : Except AppError Link → World → Prop} (read : ∀ ms, Q (.ok r) (w.advance ms)) :
    Always (machine P) (alone P faultFree) i Q (LinksService.getOwnedLink s userId) w := by
  apply Always.bind
  refine alone_findLink fun ms => ?_
  rw [found]
  dsimp only
  rw [if_neg (not_not.mpr owned)]
  exact read ms

/-- DELETE evicts the entry of the path parameter. -/
theorem alone_remove (found : w.link? s = some r) (owned : r.userId = userId) :
    Always (machine P) (alone P faultFree) i
      (fun res w' => res = .ok () ∧ w'.redis = w.redis.del (LinkCacheService.cacheKey s))
      (LinksController.remove userId s) w := by
  apply Always.bind
  apply Always.bind
  refine alone_getOwnedLink found owned fun ms => ?_
  apply Always.bind
  refine alone_writeLink rfl (fun ch w up => ?_) fun n w₁ kept _ => ?_
  · exact ⟨_, _, by simp only [exec, up, Option.isSome_none, Bool.false_eq_true, ↓reduceIte]; rfl⟩
  -- the row went by the CHAR(6) comparison, the entry goes by the parameter as it stands
  refine alone_cacheDel fun w₂ evicted => ⟨rfl, ?_⟩
  rw [evicted, kept]
  rfl

theorem alone_updateDestination (found : w.link? s = some r) (owned : r.userId = userId) :
    Always (machine P) (alone P faultFree) i
      (fun res w' => res = .ok { r with originalUrl := url } ∧ w'.redis = w.redis ∧ w.now ≤ w'.now)
      (LinksService.updateDestination s userId url) w := by
  apply Always.bind
  refine alone_getOwnedLink found owned fun ms => ?_
  apply Always.bind
  refine alone_writeLink rfl (fun ch w up => ?_) fun n w₁ kept later => ⟨rfl, kept, ?_⟩
  · exact ⟨_, _, by simp only [exec, up, Option.isSome_none, Bool.false_eq_true, ↓reduceIte]; rfl⟩
  · exact (Nat.le_add_right _ ms).trans later

/-- PATCH overwrites the entry of the row's slug, or evicts the entry of the path parameter when
the link has expired. -/
theorem alone_update (found : w.link? s = some r) (owned : r.userId = userId) :
    Always (machine P) (alone P faultFree) i
      (fun res w' => (∃ link, res = .ok link) ∧
        ((isExpiredAt r.expiresAt w.now = false ∧
            ∃ e, w'.redis (LinkCacheService.cacheKey r.shortUrl.1) = some e ∧ e.value = url) ∨
          r.expiresAt ≠ none ∧ w'.redis = w.redis.del (LinkCacheService.cacheKey s)))
      (LinksController.update userId s url) w := by
  apply Always.bind
  refine (alone_updateDestination found owned).mono fun res w₁ updated => ?_
  obtain ⟨rfl, kept, later⟩ := updated
  dsimp only
  cases expires : r.expiresAt with
  | none =>
    apply Always.bind
    exact alone_cacheSet fun w' e entry value => ⟨⟨_, rfl⟩, .inl ⟨rfl, e, entry, value⟩⟩
  | some x =>
    apply Always.bind
    apply alone_await
    intro ms ch res w₂ _ returned
    obtain ⟨rfl, rfl⟩ := exec_dateNow returned
    dsimp only
    split
    · apply Always.bind
      refine alone_cacheDel fun w' evicted => ⟨⟨_, rfl⟩, .inr ⟨by simp, ?_⟩⟩
      rw [evicted]
      exact congrArg (fun redis => Expiring.del redis _) kept
    next ahead =>
      -- not expired when the clock is read, so not expired before either
      have valid : isExpiredAt (some x) w.now = false := by
        simp only [World.advance, Nat.cast_add] at ahead
        simp only [isExpiredAt, Option.any_some, decide_eq_false_iff_not]
        omega
      apply Always.bind
      exact alone_cacheSet fun w' e entry value => ⟨⟨_, rfl⟩, .inl ⟨valid, e, entry, value⟩⟩

/-! ### Agreement -/

/-- The slug of a query. -/
def ClickHouseCmd.slug : ClickHouseCmd → String
  | .insert row => row.shortUrl
  | .total slug | .byDay slug | .topCountries slug | .topBrowsers slug => slug

/-- DELETE evicts the entry that `resolve` reads for the row's slug, whatever the cache holds. -/
def Evicts (P : Platform) (w : World) (userId s : String) (r : Link) : Prop :=
  ∀ i cache w', Runs (machine P) (alone P faultFree) i (LinksController.remove userId s)
    { w with redis := cache } (.ok ()) w' →
    w'.redis (LinkCacheService.cacheKey r.shortUrl.1) = none

/-- PATCH leaves no other url in that entry. -/
def Overwrites (P : Platform) (w : World) (userId s : String) (r : Link) : Prop :=
  ∀ i cache url link w', Runs (machine P) (alone P faultFree) i
    (LinksController.update userId s url) { w with redis := cache } (.ok link) w' →
    ∀ e, w'.redis (LinkCacheService.cacheKey r.shortUrl.1) = some e → e.value = url

/-- The statistics are asked for that slug. -/
def Asks (userId s : String) (r : Link) : Prop :=
  Prog.Only (fun c : apiWithStats.Cmd => ∀ query, c = .inr query → query.slug = r.shortUrl.1)
    (StatsController.getStats s userId)

/-- A program of commands that can always complete has a run. -/
theorem exists_run_of_canRun {α : Type} {p : Prog α}
    (only : p.Only fun c : Cmd => ∀ w, ∃ ch res w', ch.fault = none ∧
      exec P i c ch w = some (res, w')) (w : World) :
    ∃ r w', Runs (machine P) (alone P faultFree) i p w r w' := by
  refine exists_runs only alone_still (fun c w can (_ : True) => ?_) True.intro
  obtain ⟨ch, res, w', works, returned⟩ := can w
  exact ⟨ch, res, w', works, returned, True.intro⟩

theorem evicts_iff (found : w.link? s = some r) (owned : r.userId = userId) :
    Evicts P w userId s r ↔ s = r.shortUrl.1 := by
  constructor
  · intro evicts
    by_contra other
    have only : (LinksController.remove userId s).Only fun c : Cmd => ∀ w, ∃ ch res w',
        ch.fault = none ∧ exec P 0 c ch w = some (res, w') := by
      refine only_remove ?_ ?_ ?_ <;> exact fun w => ⟨{}, by simp [exec]⟩
    let key := LinkCacheService.cacheKey r.shortUrl.1
    -- an entry under the row's own slug, which no other key evicts
    let cache : Expiring String String := Expiring.empty.set 0 key "" none
    obtain ⟨res, w', run⟩ := exists_run_of_canRun only { w with redis := cache }
    have found' : ({ w with redis := cache } : World).link? s = some r := found
    obtain ⟨rfl, kept⟩ := (alone_remove found' owned).runs run
    have gone := evicts 0 cache w' run
    rw [kept, Expiring.del_of_ne fun same => other (cacheKey_inj same).symm] at gone
    simp [cache, key] at gone
  · rintro rfl i cache w' run
    have found' : ({ w with redis := cache } : World).link? r.shortUrl.1 = some r := found
    rw [((alone_remove found' owned).runs run).2]
    exact Expiring.del_self _ _

theorem overwrites_of_slug (found : w.link? r.shortUrl.1 = some r) (owned : r.userId = userId) :
    Overwrites P w userId r.shortUrl.1 r := by
  intro i cache url link w' run e entry
  have found' : ({ w with redis := cache } : World).link? r.shortUrl.1 = some r := found
  -- overwritten while the link is valid, evicted once it has expired
  rcases ((alone_update found' owned).runs run).2 with ⟨-, e', entry', value⟩ | ⟨-, evicted⟩
  · cases entry'.symm.trans entry
    exact value
  · rw [evicted, Expiring.del_self] at entry
    cases entry

/-- PATCH on an expired link only evicts the entry of the path parameter. -/
theorem overwrites_iff (found : w.link? s = some r) (owned : r.userId = userId)
    (expired : isExpiredAt r.expiresAt w.now = true) :
    Overwrites P w userId s r ↔ s = r.shortUrl.1 := by
  constructor
  · intro overwrites
    by_contra other
    have only : (LinksController.update userId s "").Only fun c : Cmd => ∀ w, ∃ ch res w',
        ch.fault = none ∧ exec P 0 c ch w = some (res, w') := by
      refine only_update ?_ ?_ ?_ ?_ ?_
      all_goals intros; exact ⟨{}, by simp [exec]⟩
    let key := LinkCacheService.cacheKey r.shortUrl.1
    -- the entry of the row's own slug holds another url and stays
    let cache : Expiring String String := Expiring.empty.set 0 key "stale" none
    obtain ⟨res, w', run⟩ := exists_run_of_canRun only { w with redis := cache }
    have found' : ({ w with redis := cache } : World).link? s = some r := found
    obtain ⟨⟨link, rfl⟩, ⟨valid, -⟩ | ⟨-, kept⟩⟩ := (alone_update found' owned).runs run
    · exact absurd (expired.symm.trans valid) (by simp)
    · have entry : w'.redis key = some ⟨"stale", none⟩ := by
        rw [kept, Expiring.del_of_ne fun same => other (cacheKey_inj same).symm]
        simp [cache, key]
      exact absurd (overwrites 0 cache "" link w' run _ entry) (by decide)
  · rintro rfl
    exact overwrites_of_slug found owned

theorem asks_iff (owned : r.userId = userId) : Asks userId s r ↔ s = r.shortUrl.1 := by
  constructor
  · intro asks
    -- the answer that finds the row leads to the first query
    have queries := asks.2 (.ok (some r))
    have verified : (if r.userId ≠ userId then throw AppError.forbidden else pure () : Prog Unit) =
        pure () := if_neg (not_not.mpr owned)
    have queries : Prog.Only _ (((if r.userId ≠ userId then throw AppError.forbidden else pure () :
      Prog Unit).lift : StatsProg Unit) >>= fun _ => do
        let stats ← StatsService.getStats s
        pure (toStatsResponse s stats)) := queries
    rw [verified] at queries
    exact queries.1 _ rfl
  · rintro rfl
    have asked : ∀ c : ClickHouseCmd, c.slug = r.shortUrl.1 → Prog.Only
        (fun c : apiWithStats.Cmd => ∀ query, c = .inr query → query.slug = r.shortUrl.1)
        (awaitClickHouse c) := by
      intro c own
      refine .perform ?_
      rintro query ⟨⟩
      exact own
    refine .bind (Prog.Only.lift ?_) fun _ => ?_
    · refine .bind (.perform (by simp)) fun found => ?_
      cases found with
      | none => trivial
      | some link =>
        dsimp only
        split <;> trivial
    · refine .bind (.bind (asked _ rfl) fun _ => .bind (asked _ rfl) fun _ =>
        .bind (asked _ rfl) fun _ => .bind (asked _ rfl) fun _ => trivial) fun _ => trivial

/-- For every path parameter under which the database finds a row of the caller: DELETE, PATCH and
the statistics all reach the cache entry and the clicks of the row's slug exactly if the parameter
is that slug, and not the slug with blanks after it. -/
theorem keys_agree_iff (found : w.link? s = some r) (owned : r.userId = userId) :
    ((Evicts P w userId s r ∧ Overwrites P w userId s r ∧ Asks userId s r) ↔
        s = r.shortUrl.1) ∧
      (Evicts P w userId s r ↔ s = r.shortUrl.1) ∧
      (isExpiredAt r.expiresAt w.now = true → (Overwrites P w userId s r ↔ s = r.shortUrl.1)) ∧
      (Asks userId s r ↔ s = r.shortUrl.1) := by
  refine ⟨⟨fun agree => (evicts_iff found owned).mp agree.1, ?_⟩, evicts_iff found owned,
    overwrites_iff found owned, asks_iff owned⟩
  rintro rfl
  exact ⟨(evicts_iff found owned).mpr rfl, overwrites_of_slug found owned,
    (asks_iff owned).mpr rfl⟩

/-- A link of one user. -/
def shortened : Link := ⟨⟨"abcdef", rfl⟩, "https://ab.cd", "id1", 1000, none⟩

def oneLink : World :=
  { World.empty 5000 with links := ⟨[shortened], by simp⟩ }

theorem keys_agree_iff_listed : Evicts Platform.plain oneLink "id1" "abcdef" shortened ∧
    Overwrites Platform.plain oneLink "id1" "abcdef" shortened ∧ Asks "id1" "abcdef" shortened := by
  have found : oneLink.link? "abcdef" = some shortened := by decide
  exact (keys_agree_iff found rfl).1.mpr rfl

/-- DELETE with a blank after the slug deletes the row and leaves its cache entry. -/
theorem padded_slug_not_evicted :
    ¬∀ (w : World) (userId s : String) (r : Link), w.link? s = some r → r.userId = userId →
      Evicts Platform.plain w userId s r ∧ Overwrites Platform.plain w userId s r ∧
        Asks userId s r := by
  intro agree
  have found : oneLink.link? "abcdef " = some shortened := by decide
  have evicts := (agree oneLink "id1" "abcdef " shortened found rfl).1
  exact absurd ((evicts_iff found rfl).mp evicts) (by decide)

end Mikrouli
