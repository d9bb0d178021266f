import Mikrouli.Properties.Standing

/-! The link cache over sequential runs: what each request leaves in it, when a cached link
outlives its expiry, and when the cache cannot be told from the database. -/

namespace Mikrouli

open Async Store

/-! ### Requests and their cache writes -/

/-- No expiry, or at least one full second before it. -/
abbrev HasLead (expiresAt : Option Int) (now : Nat) : Prop :=
  ∀ x ∈ expiresAt, 1000 ≤ x - now

/-- If the request is about to cache a link, the link has at least a second left. -/
def Timely (P : Platform) (i : Nat) (w : World) : Req → Prop
  | .createLink user _ (some expiresAt) =>
    (user.isGuest = true ∨ LinkQuotaLeft P i w user.id) → HasLead expiresAt w.now
  | .updateLink userId slug _ =>
    ∀ l ∈ w.link? slug, l.userId = userId →
      isExpiredAt l.expiresAt w.now = false → HasLead l.expiresAt w.now
  | .resolve slug =>
    w.redis.get w.now (LinkCacheService.cacheKey slug) = none →
      ∀ l ∈ w.link? slug, hasHttpScheme P l.originalUrl = true →
        isExpiredAt l.expiresAt w.now = false → HasLead l.expiresAt w.now
  | _ => True

instance (P : Platform) (i : Nat) (w : World) : (r : Req) → Decidable (Timely P i w r)
  | .createLink _ _ (some _) => inferInstanceAs (Decidable (_ → _))
  | .updateLink _ _ _ => inferInstanceAs (Decidable (∀ _ ∈ _, _))
  | .resolve _ => inferInstanceAs (Decidable (_ → _))
  | .createLink _ _ none | .register _ _ | .validateCredentials _ _ | .login _ _
  | .findOrCreateFromProvider _ | .loginWithGithub _ | .rotateRefresh _ | .revokeRefresh _
  | .createShortLink _ _ _ | .removeLink _ _ | .cleanup | .createKey _ _ | .revokeKey _ _
  | .validateKey _ | .listKeys _ => inferInstanceAs (Decidable True)

/-- What the database alone answers. -/
def databaseResolution (P : Platform) (w : World) (slug : String) : RedirectResolution :=
  match w.link? slug with
  | none => .notFound
  | some l =>
    if isExpiredAt l.expiresAt w.now then .expired
    else if hasHttpScheme P l.originalUrl then .active l.originalUrl else .notFound

/-- The entry holds the slug's row as it is, and dies no later than the row expires. -/
def Backed (w : World) (slug : String) (e : Stamped String) : Prop :=
  ∃ l, w.link? slug = some l ∧ e.value = l.originalUrl ∧
    ∀ x, l.expiresAt = some x → ∃ d, e.deadline = some d ∧ (d : Int) ≤ x

/-- What a request may do to the cache: write an entry for a row that is there, and, when its
slug parameter is in stored form, leave no entry behind whose row it changed. -/
structure CacheEffect (stored : Prop) (w w' : World) : Prop where
  written : ∀ slug e, w'.redis (LinkCacheService.cacheKey slug) = some e →
    w.redis (LinkCacheService.cacheKey slug) = some e ∨ Backed w' slug e
  kept : stored → ∀ slug e, slug.length = SLUG_LENGTH →
    w'.redis (LinkCacheService.cacheKey slug) = some e →
    Backed w' slug e ∨ (w.redis (LinkCacheService.cacheKey slug) = some e ∧
      ∀ l, w.link? slug = some l → w'.link? slug = some l)

/-- A request that only takes entries away, each together with its row. -/
structure Purge (stored : Prop) (w w' : World) : Prop where
  removed : ∀ key e, w'.redis key = some e → w.redis key = some e
  kept : stored → ∀ slug e, slug.length = SLUG_LENGTH →
    w'.redis (LinkCacheService.cacheKey slug) = some e →
    ∀ l, w.link? slug = some l → w'.link? slug = some l

variable {P : Platform} {i : Nat} {w w' : World} {stored : Prop}

/-- With a second to spare, the entry's life is positive and ends by the expiry. -/
theorem cacheLife_of_lead {expiresAt : Option Int} {now : Nat} (lead : HasLead expiresAt now)
    {x : Int} (expires : expiresAt = some x) :
    ∃ n, cacheLife expiresAt now = some n ∧ ((now + 1000 * n : Nat) : Int) ≤ x := by
  have left := lead x expires
  have ahead : ¬x - (now : Int) ≤ 0 := by omega
  have seconds : 0 < min ((x - now) / 1000).toNat CACHE_TTL_CAP_SECONDS := by
    simp only [CACHE_TTL_CAP_SECONDS]
    omega
  refine ⟨min ((x - now) / 1000).toNat CACHE_TTL_CAP_SECONDS, ?_, ?_⟩
  · subst expires
    simp only [cacheLife, LinkCacheService.ttlSecondsUntil, ahead, ↓reduceIte]
    exact Option.filter_some_pos (by simpa using seconds)
  · have capped := Nat.min_le_left ((x - now) / 1000).toNat CACHE_TTL_CAP_SECONDS
    omega

/-! ### Effects of the single writes -/

theorem Purge.refl : Purge stored w w := ⟨fun _ _ => id, fun _ _ _ _ _ _ => id⟩

theorem Purge.trans {w₁ w₂ w₃ : World} (first : Purge stored w₁ w₂)
    (second : Purge stored w₂ w₃) : Purge stored w₁ w₃ := by
  constructor
  · exact fun key e after => first.removed key e (second.removed key e after)
  · intro form slug e size after l row
    have between := second.removed _ e after
    exact second.kept form slug e size after l (first.kept form slug e size between l row)

theorem Purge.effect (purge : Purge stored w w') : CacheEffect stored w w' := by
  constructor
  · exact fun slug e after => .inl (purge.removed _ e after)
  · exact fun form slug e size after =>
      .inr ⟨purge.removed _ e after, purge.kept form slug e size after⟩

theorem CacheEffect.refl : CacheEffect stored w w := Purge.refl.effect

theorem CacheEffect.weaken {stored' : Prop} (effect : CacheEffect stored w w')
    (form : stored' → stored) : CacheEffect stored' w w' :=
  ⟨effect.written, fun form' => effect.kept (form form')⟩

/-- A following step that leaves the rows alone adds its effect. -/
theorem CacheEffect.trans {w₁ w₂ w₃ : World} (first : CacheEffect stored w₁ w₂)
    (second : CacheEffect stored w₂ w₃) (rows : w₃.links = w₂.links) :
    CacheEffect stored w₁ w₃ := by
  have same : ∀ slug, w₃.link? slug = w₂.link? slug := fun slug => by rw [World.link?, rows]; rfl
  have backed : ∀ slug e, Backed w₂ slug e → Backed w₃ slug e := by
    rintro slug e ⟨l, row, value, deadline⟩
    exact ⟨l, (same slug).trans row, value, deadline⟩
  constructor
  · intro slug e after
    rcases second.written slug e after with between | fresh
    · exact (first.written slug e between).imp_right (backed slug e)
    · exact .inr fresh
  · intro form slug e size after
    rcases second.kept form slug e size after with fresh | ⟨between, -⟩
    · exact .inl fresh
    · rcases first.kept form slug e size between with fresh | ⟨before, kept⟩
      -- what the first step backed stays backed, as the rows stay
      · exact .inl (backed slug e fresh)
      · exact .inr ⟨before, fun l row => (same slug).trans (kept l row)⟩

theorem effect_insert {links : LinkTable} {outbox : List Outbox} {link : Link}
    (inserted : w.links.insert? link = some links) :
    CacheEffect stored w { w with links := links, outbox := outbox } := by
  constructor
  · exact fun slug e after => .inl after
  · intro _ slug e _ after
    refine .inr ⟨after, fun l row => ?_⟩
    change ({ w with links := links } : World).link? slug = some l
    rw [World.link?_insert inserted]
    split
    -- the slug was free, so it had no row before
    next same => simp [World.link?_of_insert inserted same] at row
    · exact row

/-- The entry written for a row is backed by it. -/
theorem backed_cache {slug : String} {l : Link} (row : w.link? slug = some l)
    (lead : HasLead l.expiresAt w.now) {e : Stamped String}
    (after : (w.cache slug l.originalUrl l.expiresAt).redis (LinkCacheService.cacheKey slug) =
      some e) : Backed (w.cache slug l.originalUrl l.expiresAt) slug e := by
  simp only [World.cache, Expiring.set_self, Option.some.injEq] at after
  refine ⟨l, row, by rw [← after], fun x expires => ?_⟩
  obtain ⟨n, life, ends⟩ := cacheLife_of_lead lead expires
  exact ⟨w.now + 1000 * n, by rw [← after]; simp [life], ends⟩

theorem cache_of_ne {slug slug' url : String} {expiresAt : Option Int} (other : slug' ≠ slug) :
    (w.cache slug url expiresAt).redis (LinkCacheService.cacheKey slug') =
      w.redis (LinkCacheService.cacheKey slug') :=
  Expiring.set_of_ne (fun same => other (cacheKey_inj same)) _ _ _ _

theorem effect_cache {slug : String} {l : Link} (row : w.link? slug = some l)
    (lead : HasLead l.expiresAt w.now) :
    CacheEffect stored w (w.cache slug l.originalUrl l.expiresAt) := by
  constructor
  · intro slug' e after
    by_cases same : slug' = slug
    · subst same; exact .inr (backed_cache row lead after)
    · rw [cache_of_ne same] at after; exact .inl after
  · intro _ slug' e _ after
    by_cases same : slug' = slug
    · subst same; exact .inl (backed_cache row lead after)
    · rw [cache_of_ne same] at after; exact .inr ⟨after, fun l row => row⟩

/-- A row goes and its entry with it. -/
theorem purge_delete (slug : String) :
    Purge (slug.length = SLUG_LENGTH) w
      (({ w with links := w.links.delete fun l => decide (l.slugKey = bpchar slug) } :
        World).evict slug) := by
  constructor
  · intro key e after
    simp only [World.evict, Expiring.del_apply] at after
    split at after
    · cases after
    · exact after
  · intro form slug' e size after l row
    simp only [World.evict, Expiring.del_apply] at after
    split at after
    · cases after
    next other =>
      change ({ w with links := w.links.delete fun l => decide (l.slugKey = bpchar slug) } :
        World).link? slug' = some l
      rw [World.link?_delete, if_neg ?_]
      · exact row
      · intro same
        -- six units long, the two slugs compare equal only if they are the same
        exact other (congrArg _ (bpchar_inj (size.trans form.symm) same))

/-- The row of a slug changes and its entry is gone. -/
theorem effect_update_evict (slug userId url : String) :
    CacheEffect (slug.length = SLUG_LENGTH) w
      (({ w with links := w.setOriginalUrl slug userId url } : World).evict slug) := by
  apply Purge.effect
  constructor
  · intro key e after
    simp only [World.evict, Expiring.del_apply] at after
    split at after
    · cases after
    · exact after
  · intro form slug' e size after l row
    simp only [World.evict, Expiring.del_apply] at after
    split at after
    · cases after
    next other =>
      change ({ w with links := w.setOriginalUrl slug userId url } : World).link? slug' = some l
      rw [World.link?_setOriginalUrl, row, Option.map_some, if_neg ?_]
      rintro ⟨same, -⟩
      rw [(World.link?_eq_some.mp row).2] at same
      exact other (congrArg _ (bpchar_inj (size.trans form.symm) same))

/-- The row of a slug changes and is cached as it is now, under its stored slug. -/
theorem effect_update_cache {slug userId url : String} {l : Link} (row : w.link? slug = some l)
    (owned : l.userId = userId) (lead : HasLead l.expiresAt w.now) :
    CacheEffect stored w
      (({ w with links := w.setOriginalUrl slug userId url } : World).cache l.shortUrl.1 url
        l.expiresAt) := by
  have slugKey := (World.link?_eq_some.mp row).2
  have changed := World.link?_setOriginalUrl (w := w) slug userId url
  have new : ({ w with links := w.setOriginalUrl slug userId url } : World).link? l.shortUrl.1 =
      some { l with originalUrl := url } := by
    rw [changed, World.link?_self row, Option.map_some, if_pos ⟨slugKey, owned⟩]
  constructor
  · intro slug' e after
    by_cases same : slug' = l.shortUrl.1
    · subst same; exact .inr (backed_cache new lead after)
    · rw [cache_of_ne same] at after; exact .inl after
  · intro _ slug' e size after
    by_cases same : slug' = l.shortUrl.1
    · subst same; exact .inl (backed_cache new lead after)
    · rw [cache_of_ne same] at after
      refine .inr ⟨after, fun r found => ?_⟩
      change ({ w with links := w.setOriginalUrl slug userId url } : World).link? slug' = some r
      rw [changed, found, Option.map_some, if_neg ?_]
      rintro ⟨hit, -⟩
      -- another slug of six units would be the row's own
      have alike : bpchar slug' = bpchar l.shortUrl.1 := by
        rw [← (World.link?_eq_some.mp found).2, hit, ← slugKey]
        rfl
      exact same (bpchar_inj (size.trans l.shortUrl.2.symm) alike)

/-! ### Effects of the requests -/

/-- What a resolve may answer. -/
def ResolveAnswer (P : Platform) (w : World) (slug : String) (ans : Except AppError Ans) : Prop :=
  match w.redis.get w.now (LinkCacheService.cacheKey slug) with
  | some cached => ans =
      .ok (.resolution (if hasHttpScheme P cached then .active cached else .notFound))
  | none => ans = .ok (.resolution (databaseResolution P w slug)) ∨ ans = .error .queryFailed

theorem getOwnedLink_always {slug userId : String} {Q : Except AppError Link → World → Prop}
    (failed : ∀ e, Q (.error e) w)
    (owned : ∀ l, w.link? slug = some l → l.userId = userId → Q (.ok l) w) :
    Always (machine P) (standing P) i Q (LinksService.getOwnedLink slug userId) w := by
  apply Always.bind
  apply standing_findLink
  · exact failed _
  cases row : w.link? slug with
  | none => exact failed _
  | some l =>
    simp only
    split
    next => exact failed _
    next same => exact owned l row (not_not.mp same)

theorem createLink_effect {user : LinksController.RequestUser} {url : String}
    {expiresAt : Option (Option Int)}
    (timely : Timely P i w (.createLink user url expiresAt)) :
    Always (machine P) (standing P) i (fun _ w' => CacheEffect stored w w')
      (LinksController.create P user url expiresAt) w := by
  -- either way of creating a link, the row is cached with the expiry it was given
  have caches : (user.isGuest = true ∨ LinkQuotaLeft P i w user.id) →
      ∀ link links outbox, w.links.insert? link = some links →
      link.originalUrl = url → link.userId = user.id →
      link.expiresAt = expiresAt.getD (some (w.now + RETENTION_MS)) →
      Always (machine P) (standing P) i (fun _ w' => CacheEffect stored w w')
        (do
          LinkCacheService.set link.shortUrl.1 link.originalUrl link.expiresAt
          pure (toPublicLinkSchema link)) { w with links := links, outbox := outbox } := by
    intro admitted link links outbox inserted _ _ expiry
    -- without an expiry of its own a guest's link has the retention time ahead
    have lead : HasLead link.expiresAt w.now := by
      rw [expiry]
      cases expiresAt with
      | some explicit => exact timely admitted
      | none =>
        rintro x ⟨⟩
        simp only [RETENTION_MS]
        omega
    apply Always.bind
    apply standing_cacheSet
    have row : ({ w with links := links, outbox := outbox } : World).link? link.shortUrl.1 =
        some link := by
      change ({ w with links := links } : World).link? link.shortUrl.1 = some link
      rw [World.link?_insert inserted]
      exact if_pos rfl
    exact (effect_insert inserted).trans (effect_cache row lead) rfl
  unfold LinksController.create
  split
  next guest =>
    apply Always.bind
    exact standing_createUnmetered (fun _ => .refl) (caches (.inl guest))
  next =>
    apply Always.bind
    exact standing_create (fun _ => .refl) fun quota => caches (.inr quota)

theorem createShortLink_effect {userId url : String} {expiresAt : Option (Option Int)} :
    Always (machine P) (standing P) i (fun _ w' => CacheEffect stored w w')
      (LinksService.create P url userId expiresAt) w :=
  standing_create (fun _ => .refl) fun _ _ _ _ inserted _ _ _ => effect_insert inserted

theorem removeLink_effect {userId slug : String} :
    Always (machine P) (standing P) i
      (fun _ w' => CacheEffect (slug.length = SLUG_LENGTH) w w')
      (LinksController.remove userId slug) w := by
  apply Always.bind
  apply Always.bind
  apply getOwnedLink_always
  · exact fun _ => .refl
  intro l _ _
  apply Always.bind
  apply standing_deleteLink
  · exact .refl
  intro n
  apply standing_cacheDel
  exact (purge_delete slug).effect

theorem updateLink_effect {userId slug url : String}
    (timely : Timely P i w (.updateLink userId slug url)) :
    Always (machine P) (standing P) i
      (fun _ w' => CacheEffect (slug.length = SLUG_LENGTH) w w')
      (LinksController.update userId slug url) w := by
  apply Always.bind
  apply Always.bind
  apply getOwnedLink_always
  · exact fun _ => .refl
  intro l row owned
  apply Always.bind
  apply standing_updateLink
  · exact .refl
  intro n
  have fresh := timely l row owned
  have cached : HasLead l.expiresAt w.now → CacheEffect (slug.length = SLUG_LENGTH) w
      (({ w with links := w.setOriginalUrl slug userId url } : World).cache l.shortUrl.1 url
        l.expiresAt) := effect_update_cache row owned
  cases expiry : l.expiresAt with
  | none =>
    rw [expiry] at fresh cached
    apply Always.bind
    apply standing_cacheSet
    exact cached (fresh rfl)
  | some x =>
    rw [expiry] at fresh cached
    apply Always.bind
    apply standing_dateNow
    simp only
    split
    next expired =>
      apply Always.bind
      apply standing_cacheDel
      exact effect_update_evict slug userId url
    next ahead =>
      apply Always.bind
      apply standing_cacheSet
      exact cached (fresh (by simpa [isExpiredAt] using ahead))

theorem processBatch_purges (expired : List Link) (count : Nat) {w₀ : World}
    (purged : Purge True w₀ w) :
    Always (machine P) (standing P) i (fun _ w' => Purge True w₀ w')
      (CleanupService.processBatch count expired) w := by
  induction expired generalizing count w with
  | nil => exact purged
  | cons link expired ih =>
    apply Always.bind
    apply Always.tryCatch
    apply Always.bind
    apply Always.bind
    apply standing_deleteLink
    · exact ih count purged
    intro n
    apply standing_cacheDel
    have gone := purge_delete (w := w) link.shortUrl.1
    -- a row of the table has its slug in stored form, so its entry goes with it
    exact ih _ (purged.trans ⟨gone.removed, fun _ => gone.kept link.shortUrl.2⟩)

theorem cleanup_effect :
    Always (machine P) (standing P) i (fun _ w' => CacheEffect True w w')
      CleanupService.handleCleanup w := by
  apply Always.bind
  apply standing_dateNow
  apply Always.bind
  apply standing_findExpiredLinks
  · exact .refl
  intro batch
  exact (processBatch_purges batch 0 .refl).mono fun _ _ => Purge.effect

/-- The database path answers what the database says, and caches a row it serves. -/
theorem resolveFromDatabase_always {slug : String} :
    Always (machine P) (standing P) i
      (fun r w' => ((∀ l ∈ w.link? slug, hasHttpScheme P l.originalUrl = true →
          isExpiredAt l.expiresAt w.now = false → HasLead l.expiresAt w.now) →
          CacheEffect (slug.length = SLUG_LENGTH) w w') ∧
        (r = .ok (databaseResolution P w slug) ∨ r = .error .queryFailed))
      (RedirectService.resolveFromDatabase P slug) w := by
  apply Always.bind
  apply standing_findLink
  · exact ⟨fun _ => .refl, .inr rfl⟩
  cases row : w.link? slug with
  | none => exact ⟨fun _ => .refl, .inl (by simp [databaseResolution, row])⟩
  | some l =>
    apply Always.bind
    apply standing_isExpired
    simp only
    split
    next expired => exact ⟨fun _ => .refl, .inl (by simp [databaseResolution, row, expired])⟩
    next alive =>
      split
      next scheme =>
        exact ⟨fun _ => .refl, .inl (by simp [databaseResolution, row, alive, scheme])⟩
      next scheme =>
        rw [Bool.not_eq_false] at scheme
        rw [Bool.not_eq_true] at alive
        apply Always.bind
        apply standing_cacheSet
        refine ⟨fun timely => effect_cache row (timely l rfl scheme alive), .inl ?_⟩
        simp [databaseResolution, row, alive, scheme]

theorem resolve_effect {slug : String} (timely : Timely P i w (.resolve slug)) :
    Always (machine P) (standing P) i
      (fun r w' => CacheEffect (slug.length = SLUG_LENGTH) w w' ∧
        match w.redis.get w.now (LinkCacheService.cacheKey slug) with
        | some cached => r = .ok (if hasHttpScheme P cached then .active cached else .notFound)
        | none => r = .ok (databaseResolution P w slug) ∨ r = .error .queryFailed)
      (RedirectService.resolve P slug) w := by
  apply Always.bind
  apply standing_cacheGet
  cases hit : w.redis.get w.now (LinkCacheService.cacheKey slug) with
  | none =>
    refine resolveFromDatabase_always.mono fun r w' post => ⟨post.1 (timely hit), post.2⟩
  | some cached =>
    by_cases scheme : hasHttpScheme P cached = true
    · simp only [scheme, Bool.true_eq_false, ↓reduceIte]
      exact ⟨.refl, rfl⟩
    · rw [Bool.not_eq_true] at scheme
      simp only [scheme, Bool.false_eq_true, ↓reduceIte]
      exact ⟨.refl, rfl⟩

theorem serve_effect {r : Req} (onLinks : r.onLinks = true) (timely : Timely P i w r) :
    Always (machine P) (standing P) i
      (fun ans w' => CacheEffect r.StoredForm w w' ∧
        ∀ slug, r = .resolve slug → ResolveAnswer P w slug ans) (serve P r) w := by
  have plain : ∀ {ans : Except AppError Ans} {w'}, CacheEffect r.StoredForm w w' →
      (∀ slug, r ≠ .resolve slug) → CacheEffect r.StoredForm w w' ∧
        ∀ slug, r = .resolve slug → ResolveAnswer P w slug ans :=
    fun effect other => ⟨effect, fun slug same => absurd same (other slug)⟩
  cases r with
  | createLink user url expiresAt =>
    exact .map ((createLink_effect timely).mono fun _ _ effect => plain effect (by simp))
  | createShortLink userId url expiresAt =>
    exact .map (createShortLink_effect.mono fun _ _ effect => plain effect (by simp))
  | updateLink userId slug url =>
    refine .map ((updateLink_effect timely).mono fun _ _ effect => plain ?_ (by simp))
    exact effect.weaken fun form => form slug rfl
  | removeLink userId slug =>
    refine .map (removeLink_effect.mono fun _ _ effect => plain ?_ (by simp))
    exact effect.weaken fun form => form slug rfl
  | cleanup =>
    refine .map (cleanup_effect.mono fun _ _ effect => plain ?_ (by simp))
    exact effect.weaken fun _ => trivial
  | resolve slug =>
    apply Always.map
    refine (resolve_effect timely).mono ?_
    rintro r w' ⟨effect, answer⟩
    refine ⟨effect.weaken fun form => form slug rfl, ?_⟩
    rintro _ ⟨⟩
    unfold ResolveAnswer
    split at answer
    next cached hit => rw [answer]; rfl
    next miss =>
      rcases answer with rfl | rfl
      · exact .inl rfl
      · exact .inr rfl
  | _ => cases onLinks

/-! ### Sequential runs -/

/-- Link requests one after the other: the clock moves between them, and a guard that knows
the client says which may come next. -/
def linkRegime (P : Platform) (guard : Nat → World → Req → Prop) : Regime (mikrouli P) where
  toSetting := standing P
  idle w w' := ∃ ms, w' = w.advance ms
  next h w r := r.onLinks = true ∧ guard h.length w r

/-- The link an answer from slug's entry or row speaks of: the row itself, or the row a
request of the history left together with the entry. -/
def ServedLink (older : List (Served (mikrouli P))) (w : World) (slug : String) (l : Link) : Prop :=
  w.link? slug = some l ∨
    ∃ s ∈ older, s.after.link? slug = some l ∧ ∃ e,
      s.after.redis (LinkCacheService.cacheKey slug) = some e ∧
      w.redis (LinkCacheService.cacheKey slug) = some e

theorem not_expired_of_backed {slug : String} {e : Stamped String} {now : Nat}
    (live : e.liveAt now = true) (backed : Backed w slug e) :
    ∃ l, w.link? slug = some l ∧ e.value = l.originalUrl ∧ isExpiredAt l.expiresAt now = false := by
  obtain ⟨l, row, value, deadline⟩ := backed
  refine ⟨l, row, value, ?_⟩
  cases expiry : l.expiresAt with
  | none => rfl
  | some x =>
    obtain ⟨d, ends, le⟩ := deadline x expiry
    have before := Stamped.lt_of_liveAt ends live
    simp only [isExpiredAt, Option.any_some, decide_eq_false_iff_not]
    omega

/-- Every entry in the cache was left by an earlier request, backed by the row of its slug. -/
def EntriesBacked (h : List (Served (mikrouli P))) (w : World) : Prop :=
  ∀ slug e, w.redis (LinkCacheService.cacheKey slug) = some e →
    ∃ s ∈ h, s.after.redis (LinkCacheService.cacheKey slug) = some e ∧ Backed s.after slug e

theorem entries_backed {w₀ : World}
    (cold : ∀ slug, w₀.redis (LinkCacheService.cacheKey slug) = none)
    {h : List (Served (mikrouli P))} (session : Session (linkRegime P (Timely P)) w₀ h w) :
    EntriesBacked h w := by
  refine Session.invariant EntriesBacked (fun slug e entry => ?_) ?_ ?_ session
  · rw [cold] at entry
    cases entry
  · rintro h w w' inv ⟨ms, rfl⟩
    exact inv
  · intro h w r inv admitted
    refine (serve_effect admitted.1 admitted.2).mono fun ans w' effect slug e after => ?_
    rcases effect.1.written slug e after with before | fresh
    · obtain ⟨s, member, left⟩ := inv slug e before
      exact ⟨s, List.mem_cons_of_mem _ member, left⟩
    · exact ⟨_, List.mem_cons_self, after, fresh⟩

/-- Runs a script of link requests whose result passes a test. -/
theorem exists_linkSession {guard : Nat → World → Req → Prop}
    [∀ i w r, Decidable (guard i w r)] (w₀ : World) (lines : List (Line (mikrouli P)))
    (fair : ∀ line ∈ lines, line.Fair (linkRegime P guard))
    (test : List (Served (mikrouli P)) → World → Bool)
    (passed : ((recite (fun h w (r : Req) => r.onLinks && decide (guard h.length w r)) lines [] w₀).any
      fun x => test x.1 x.2) = true) :
    ∃ h w, Session (linkRegime P guard) w₀ h w ∧ test h w = true :=
  exists_session_of_recite (fun _ => rfl) (fun _ _ _ admitted => by simpa [linkRegime] using admitted)
    w₀ lines fair test passed

/-- A guest creates a link with the given expiry, and it is resolved at once. -/
def guestLink (expiresAt : Option (Option Int)) : List (Line (mikrouli Platform.plain)) :=
  [.serve (.createLink ⟨"guest", true⟩ "https://ab.cd" expiresAt)
    [{ draw := "abc123" }, { draw := "abc123" }, {}, {}, {}],
   .serve (.resolve "abc123") [{}]]

theorem guestLink_fair (expiresAt : Option (Option Int)) (guard : Nat → World → Req → Prop) :
    ∀ line ∈ guestLink expiresAt, line.Fair (linkRegime Platform.plain guard) := by
  simp [guestLink, Line.Fair, linkRegime, standing]

/-- Every entry under a stored slug is backed by the row as it is now. -/
def CacheBacked (w : World) : Prop :=
  ∀ slug e, slug.length = SLUG_LENGTH → w.redis (LinkCacheService.cacheKey slug) = some e →
    Backed w slug e

theorem cache_backed {w₀ : World} (cold : ∀ slug, w₀.redis (LinkCacheService.cacheKey slug) = none)
    {h : List (Served (mikrouli P))}
    (session : Session (linkRegime P fun i w r => Timely P i w r ∧ r.StoredForm) w₀ h w) :
    CacheBacked w := by
  refine Session.invariant (fun _ w => CacheBacked w) (fun slug e _ entry => ?_) ?_ ?_ session
  · rw [cold] at entry
    cases entry
  · rintro _ w w' inv ⟨ms, rfl⟩
    exact inv
  · intro _ w r inv admitted
    obtain ⟨onLinks, timely, form⟩ := admitted
    refine (serve_effect onLinks timely).mono fun ans w' effect slug e size after => ?_
    -- written for the row as it is now, or there before with its row untouched
    rcases effect.1.kept form slug e size after with fresh | ⟨before, kept⟩
    · exact fresh
    · obtain ⟨l, row, rest⟩ := inv slug e size before
      exact ⟨l, kept l row, rest⟩

/-- The code's own database path answers `databaseResolution`, unless its statement fails. -/
theorem resolveFromDatabase_answer {slug : String} {r : Except AppError RedirectResolution}
    (run : Runs (machine P) (standing P) i (RedirectService.resolveFromDatabase P slug) w r w') :
    r = .ok (databaseResolution P w slug) ∨ r = .error .queryFailed :=
  (resolveFromDatabase_always.runs run).2

end Mikrouli
