import Mikrouli.Model.Api

/-! Which commands a request may issue, whatever it is answered on the way. -/

namespace Mikrouli

open Async

/-! ### Footprints of requests -/

/-- The requests that read or write links. -/
def Req.onLinks : Req → Bool
  | .createLink _ _ _ | .createShortLink _ _ _ | .updateLink _ _ _ | .removeLink _ _
  | .resolve _ | .cleanup => true
  | _ => false

/-- The requests that read or write the refresh-token allowlist. -/
def Req.onTokens : Req → Bool
  | .login _ _ | .loginWithGithub _ | .rotateRefresh _ | .revokeRefresh _ => true
  | _ => false

/-- The requests that may add a user or a provider account. -/
def Req.onAccounts : Req → Bool
  | .register _ _ | .findOrCreateFromProvider _ | .loginWithGithub _ => true
  | _ => false

def Req.linkOwner? : Req → Option String
  | .createLink user _ _ => some user.id
  | .createShortLink userId _ _ => some userId
  | _ => none

def Req.slug? : Req → Option String
  | .updateLink _ slug _ | .removeLink _ slug | .resolve slug => some slug
  | _ => none

/-- The slug parameter, where there is one, has the length a stored slug has. -/
abbrev Req.StoredForm (r : Req) : Prop := ∀ slug ∈ r.slug?, slug.length = SLUG_LENGTH

def Req.keyOwner? : Req → Option String
  | .createKey userId _ => some userId
  | _ => none

theorem cacheKey_ne_buildRevocationKey (slug f : String) :
    LinkCacheService.cacheKey slug ≠ buildRevocationKey f := by
  intro same
  have chars := congrArg String.toList same
  simp [LinkCacheService.cacheKey, CACHE_PREFIX, buildRevocationKey, REVOCATION_KEY_PREFIX] at chars

/-- The commands a request may issue. -/
def Req.MayIssue (r : Req) : Cmd → Prop
  | .redisGet key | .redisSet key _ _ | .redisDel key =>
    (r.onLinks = true ∧ ∃ slug, key = LinkCacheService.cacheKey slug) ∨
      (r.onTokens = true ∧ ∃ family, key = buildRevocationKey family)
  | .redisGetDel _ | .randomState => False
  | .sign _ _ _ => r.onTokens = true
  | .commit | .rollback | .insertUser _ _ | .saveProviderAccount _ _ => r.onAccounts = true
  | .countLinks userId _ _ => r.linkOwner? = some userId
  | .insertLinkWithOutbox fields => r.linkOwner? = some fields.userId
  | .updateLink _ _ _ | .deleteLink _ | .findExpiredLinks _ _ => r.onLinks = true
  | .randomSecret => r.keyOwner?.isSome = true
  | .countKeys userId _ _ | .saveApiKey userId _ _ _ => r.keyOwner? = some userId
  | .revokeApiKey _ userId _ => ∃ id, r = .revokeKey userId id
  | .touchApiKey _ _ => ∃ plaintext, r = .validateKey plaintext
  | _ => True

/-! ### Footprints of programs -/

section Programs

variable {P : Platform} {ok : Cmd → Prop}

theorem only_setWithOptionalTtl {key value : String} {ttl : Option Nat}
    (sets : ∀ ex, ok (.redisSet key value ex)) :
    Prog.Only ok (setWithOptionalTtl key value ttl) := by
  unfold setWithOptionalTtl
  split
  · split
    · exact .perform (sets _)
    · exact .perform (sets _)
  · exact .perform (sets _)

theorem only_cacheGet {slug : String} (gets : ok (.redisGet (LinkCacheService.cacheKey slug))) :
    Prog.Only ok (LinkCacheService.get slug) :=
  .tryCatch (.perform gets) fun _ => trivial

theorem only_cacheSet {slug originalUrl : String} {expiresAt : Option Int} (clock : ok .dateNow)
    (sets : ∀ ex, ok (.redisSet (LinkCacheService.cacheKey slug) originalUrl ex)) :
    Prog.Only ok (LinkCacheService.set slug originalUrl expiresAt) := by
  have writes : ∀ ttl, Prog.Only ok
      (safeSet (LinkCacheService.cacheKey slug) originalUrl ttl) :=
    fun ttl => .tryCatch (only_setWithOptionalTtl sets) fun _ => trivial
  cases expiresAt with
  | none => exact writes _
  | some x => exact .bind (.perform clock) fun _ => writes _

theorem only_cacheDel {slug : String} (dels : ok (.redisDel (LinkCacheService.cacheKey slug))) :
    Prog.Only ok (LinkCacheService.del slug) :=
  .tryCatch (.perform dels) fun _ => trivial

theorem only_findOneOrFail {userId : String} (finds : ok (.findUserById userId)) :
    Prog.Only ok (UsageService.findOneOrFail userId) := by
  refine .bind (.perform finds) fun user => ?_
  cases user <;> trivial

theorem only_createUnmetered {url userId : String} {explicit : Option (Option Int)}
    (clock : ok .dateNow) (generates : ok .generateSlug)
    (inserts : ∀ shortUrl expiresAt, ok (.insertLinkWithOutbox ⟨shortUrl, url, userId, expiresAt⟩)) :
    Prog.Only ok (LinksService.createUnmetered url userId explicit) := by
  refine .bind ?_ fun expiresAt => ?_
  · cases explicit with
    | some expiry => trivial
    | none => exact .bind (.perform clock) fun _ => trivial
  · generalize MAX_SLUG_RETRIES = n
    induction n with
    | zero => trivial
    | succ n ih =>
      have attempt : Prog.Only ok (LinksService.tryCreate url userId expiresAt) :=
        .bind (.perform generates) fun shortUrl => .perform (inserts shortUrl expiresAt)
      refine .bind (.tryCatch (.bind attempt fun _ => trivial) fun e => ?_) fun link => ?_
      · split <;> trivial
      · cases link with
        | none => exact ih
        | some link => trivial

theorem only_create {url userId : String} {explicit : Option (Option Int)}
    (clock : ok .dateNow) (generates : ok .generateSlug) (finds : ok (.findUserById userId))
    (counts : ∀ a b, ok (.countLinks userId a b))
    (inserts : ∀ shortUrl expiresAt, ok (.insertLinkWithOutbox ⟨shortUrl, url, userId, expiresAt⟩)) :
    Prog.Only ok (LinksService.create P url userId explicit) := by
  refine .bind (.bind (.perform clock) fun now => .perform (counts _ _)) fun count => ?_
  refine .bind (.bind (only_findOneOrFail finds) fun _ => trivial) fun limit => ?_
  split
  · trivial
  · exact only_createUnmetered clock generates inserts

theorem only_getOwnedLink {slug userId : String} (finds : ok (.findLink slug)) :
    Prog.Only ok (LinksService.getOwnedLink slug userId) := by
  refine .bind (.perform finds) fun link => ?_
  cases link with
  | none => trivial
  | some link =>
    simp only
    split <;> trivial

theorem only_controllerCreate {user : LinksController.RequestUser} {url : String}
    {expiresAt : Option (Option Int)} (clock : ok .dateNow) (generates : ok .generateSlug)
    (finds : ok (.findUserById user.id)) (counts : ∀ a b, ok (.countLinks user.id a b))
    (inserts : ∀ shortUrl expiresAt, ok (.insertLinkWithOutbox ⟨shortUrl, url, user.id, expiresAt⟩))
    (sets : ∀ slug v ex, ok (.redisSet (LinkCacheService.cacheKey slug) v ex)) :
    Prog.Only ok (LinksController.create P user url expiresAt) := by
  have caches : ∀ link : Link, Prog.Only ok (do
      LinkCacheService.set link.shortUrl.1 link.originalUrl link.expiresAt
      pure (toPublicLinkSchema link)) :=
    fun link => .bind (only_cacheSet clock fun ex => sets _ _ ex) fun _ => trivial
  unfold LinksController.create
  split
  · exact .bind (only_createUnmetered clock generates inserts) caches
  · exact .bind (only_create clock generates finds counts inserts) caches

theorem only_remove {userId slug : String} (finds : ok (.findLink slug))
    (deletes : ok (.deleteLink slug)) (dels : ok (.redisDel (LinkCacheService.cacheKey slug))) :
    Prog.Only ok (LinksController.remove userId slug) := by
  refine .bind (.bind (only_getOwnedLink finds) fun _ => ?_) fun _ => only_cacheDel dels
  exact .bind (.perform deletes) fun _ => trivial

theorem only_update {userId slug url : String} (clock : ok .dateNow) (finds : ok (.findLink slug))
    (updates : ok (.updateLink slug userId url))
    (dels : ok (.redisDel (LinkCacheService.cacheKey slug)))
    (sets : ∀ s v ex, ok (.redisSet (LinkCacheService.cacheKey s) v ex)) :
    Prog.Only ok (LinksController.update userId slug url) := by
  refine .bind (.bind (only_getOwnedLink finds) fun link => ?_) fun link => ?_
  · exact .bind (.perform updates) fun _ => trivial
  · split
    · exact .bind (only_cacheSet clock fun ex => sets _ _ ex) fun _ => trivial
    · refine .bind (.perform clock) fun now => ?_
      split
      · exact .bind (only_cacheDel dels) fun _ => trivial
      · exact .bind (only_cacheSet clock fun ex => sets _ _ ex) fun _ => trivial

theorem only_resolve {slug : String} (clock : ok .dateNow) (finds : ok (.findLink slug))
    (gets : ok (.redisGet (LinkCacheService.cacheKey slug)))
    (sets : ∀ v ex, ok (.redisSet (LinkCacheService.cacheKey slug) v ex)) :
    Prog.Only ok (RedirectService.resolve P slug) := by
  refine .bind (only_cacheGet gets) fun cached => ?_
  cases cached with
  | some cached =>
    simp only
    split <;> trivial
  | none =>
    refine .bind (.perform finds) fun link => ?_
    cases link with
    | none => trivial
    | some link =>
      refine .bind ?_ fun expired => ?_
      · unfold isExpired
        split
        · trivial
        · exact .bind (.perform clock) fun _ => trivial
      · split
        · trivial
        · split
          · trivial
          · exact .bind (only_cacheSet clock fun ex => sets _ ex) fun _ => trivial

theorem only_cleanup (clock : ok .dateNow) (finds : ∀ now take, ok (.findExpiredLinks now take))
    (deletes : ∀ slug, ok (.deleteLink slug))
    (dels : ∀ slug, ok (.redisDel (LinkCacheService.cacheKey slug))) :
    Prog.Only ok CleanupService.handleCleanup := by
  refine .bind (.perform clock) fun now => .bind (.perform (finds _ _)) fun expired => ?_
  generalize 0 = count
  induction expired generalizing count with
  | nil => trivial
  | cons link expired ih =>
    refine .bind (.tryCatch (.bind (.bind (.perform (deletes _)) fun _ => ?_) fun _ => ?_)
      fun _ => ?_) fun ok => ih _
    · exact only_cacheDel (dels _)
    · trivial
    · trivial

theorem only_createForUser {userId label : String} (clock : ok .dateNow)
    (draws : ok .randomSecret) (finds : ok (.findUserById userId))
    (counts : ∀ a b, ok (.countKeys userId a b)) (hashes : ∀ p, ok (.bcryptHash p))
    (saves : ∀ h p, ok (.saveApiKey userId label h p)) :
    Prog.Only ok (ApiKeysService.createForUser P userId label) := by
  refine .bind (.bind (.perform clock) fun now => .perform (counts _ _)) fun count => ?_
  refine .bind (.bind (only_findOneOrFail finds) fun _ => trivial) fun limit => ?_
  split
  · trivial
  · refine .bind (.bind (.perform draws) fun _ => trivial) fun secret => ?_
    refine .bind (.perform (hashes _)) fun keyHash => ?_
    exact .bind (.perform (saves _ _)) fun _ => trivial

theorem only_revoke {userId id : String} (clock : ok .dateNow)
    (revokes : ∀ now, ok (.revokeApiKey id userId now)) :
    Prog.Only ok (ApiKeysService.revoke userId id) := by
  refine .bind (.perform clock) fun now => .bind (.perform (revokes now)) fun affected => ?_
  split <;> trivial

theorem only_validate {plaintext : String} (clock : ok .dateNow)
    (finds : ∀ p, ok (.findLiveApiKey p)) (touches : ∀ id now, ok (.touchApiKey id now)) :
    Prog.Only ok (ApiKeysService.validate P plaintext) := by
  refine .bind (.perform (finds _)) fun key => ?_
  cases key with
  | none => trivial
  | some key =>
    simp only
    split
    · trivial
    · refine .bind (.tryCatch (.bind (.perform clock) fun now => .perform (touches _ _)) ?_) ?_
      · exact fun _ => trivial
      · exact fun _ => trivial

theorem only_transaction {α : Type} {body : Prog α} (inner : body.Only ok) (commits : ok .commit)
    (rolls : ok .rollback) : Prog.Only ok (transaction body) := by
  refine .tryCatch (.bind inner fun _ => .bind (.perform commits) fun _ => trivial) fun e => ?_
  exact .bind (.perform rolls) fun _ => trivial

theorem only_register {email password : String} (hashes : ok (.bcryptHash password))
    (inserts : ∀ h, ok (.insertUser email h)) (commits : ok .commit) (rolls : ok .rollback)
    (draws : ok .randomUUID) (clock : ok .dateNow) :
    Prog.Only ok (AuthService.register email password) := by
  refine .bind (.perform hashes) fun passwordHash => .bind (.tryCatch ?_ fun e => ?_) fun _ => ?_
  · exact only_transaction (.perform (inserts _)) commits rolls
  · split
    · exact .bind (.perform draws) fun _ => .bind (.perform clock) fun _ => trivial
    · trivial
  · trivial

theorem only_findOrCreateFromProvider {identity : GithubIdentity}
    (accounts : ok (.findProviderAccount identity.providerUserId))
    (byId : ∀ id, ok (.findUserById id)) (byEmail : ok (.findUserByEmail identity.email))
    (saves : ∀ id, ok (.saveProviderAccount identity.providerUserId id))
    (inserts : ok (.insertUser identity.email none)) (commits : ok .commit)
    (rolls : ok .rollback) :
    Prog.Only ok (UsersService.findOrCreateFromProvider identity) := by
  have resolves : Prog.Only ok (resolveProviderIdentity identity) := by
    refine .bind (.perform accounts) fun existing => ?_
    cases existing with
    | some existing =>
      refine .bind (.perform (byId _)) fun user => ?_
      cases user <;> trivial
    | none =>
      refine .bind (.perform byEmail) fun user => ?_
      cases user with
      | some user => exact .bind (.perform (saves _)) fun _ => trivial
      | none =>
        refine .bind (.perform inserts) fun _ => .bind (.perform byEmail) fun inserted => ?_
        cases inserted with
        | some user => exact .bind (.perform (saves _)) fun _ => trivial
        | none => trivial
  refine .tryCatch (only_transaction resolves commits rolls) fun e => ?_
  split
  · exact only_transaction resolves commits rolls
  · trivial

theorem only_validateCredentials {email password : String} (finds : ok (.findUserByEmail email)) :
    Prog.Only ok (AuthService.validateCredentials P email password) :=
  .bind (.perform finds) fun _ => trivial

theorem only_issueTokens {user : User} (draws : ok .randomUUID)
    (signs : ∀ s p e, ok (.sign s p e))
    (sets : ∀ family v ex, ok (.redisSet (buildRevocationKey family) v ex)) :
    Prog.Only ok (AuthService.issueTokens P user) := by
  refine .bind (.perform draws) fun jti => .bind (.perform draws) fun family => ?_
  refine .bind (.perform (signs _ _ _)) fun access => .bind (.perform (signs _ _ _)) fun refresh => ?_
  exact .bind (only_setWithOptionalTtl fun ex => sets _ _ ex) fun _ => trivial

theorem only_rotateRefresh {token : Token} (verifies : ∀ s, ok (.verify s token))
    (gets : ∀ family, ok (.redisGet (buildRevocationKey family)))
    (dels : ∀ family, ok (.redisDel (buildRevocationKey family)))
    (finds : ∀ id, ok (.findUserById id)) (draws : ok .randomUUID)
    (signs : ∀ s p e, ok (.sign s p e))
    (sets : ∀ family v ex, ok (.redisSet (buildRevocationKey family) v ex)) :
    Prog.Only ok (AuthService.rotateRefresh P token) := by
  refine .bind (.tryCatch (.perform (verifies _)) fun _ => trivial) fun payload => ?_
  refine .bind ?_ fun _ => .bind ?_ fun claims => .bind (.perform (gets _)) fun stored => ?_
  · unfold assertRefreshType
    split <;> trivial
  · unfold assertRefreshClaims
    split <;> trivial
  · cases stored with
    | none => trivial
    | some storedJti =>
      simp only
      split
      · exact .bind (.perform (dels _)) fun _ => trivial
      · refine .bind (.perform (finds _)) fun user => ?_
        cases user with
        | none => trivial
        | some user => exact only_issueTokens draws signs sets

theorem only_revokeRefresh {token : Token} (verifies : ∀ s, ok (.verify s token))
    (dels : ∀ family, ok (.redisDel (buildRevocationKey family))) :
    Prog.Only ok (AuthService.revokeRefresh P token) := by
  refine .bind (.tryCatch (.bind (.perform (verifies _)) fun _ => ?_) fun _ => ?_) fun verified => ?_
  · trivial
  · trivial
  · cases verified with
    | none => trivial
    | some payload =>
      simp only [AuthService.revokeFamily]
      split
      · trivial
      · split
        · trivial
        · exact .perform (dels _)

end Programs

/-- Every request keeps to the commands it may issue. -/
theorem serve_only (P : Platform) (r : Req) : Prog.Only r.MayIssue (serve P r) := by
  have mapped : ∀ {α : Type} {p : Prog α} (f : α → Ans), p.Only r.MayIssue →
      Prog.Only r.MayIssue (f <$> p) := fun f only => .bind only fun _ => trivial
  have linkKey : r.onLinks = true → ∀ slug, r.MayIssue (.redisDel (LinkCacheService.cacheKey slug)) :=
    fun onLinks slug => .inl ⟨onLinks, slug, rfl⟩
  have tokenKey : r.onTokens = true → ∀ family, r.MayIssue (.redisDel (buildRevocationKey family)) :=
    fun onTokens family => .inr ⟨onTokens, family, rfl⟩
  have issues : r.onTokens = true → ∀ user, Prog.Only r.MayIssue (AuthService.issueTokens P user) :=
    fun onTokens user =>
      only_issueTokens trivial (fun _ _ _ => onTokens) fun family _ _ => tokenKey onTokens family
  cases r with
  | register email password =>
    exact mapped _ (only_register trivial (fun _ => rfl) rfl rfl trivial trivial)
  | validateCredentials email password => exact mapped _ (only_validateCredentials trivial)
  | login email password =>
    refine mapped _ (.bind (only_validateCredentials trivial) fun user => ?_)
    cases user with
    | none => trivial
    | some user => exact issues rfl user
  | findOrCreateFromProvider identity =>
    exact mapped _ (only_findOrCreateFromProvider trivial (fun _ => trivial) trivial
      (fun _ => rfl) rfl rfl rfl)
  | loginWithGithub identity =>
    refine mapped _ (.bind (only_findOrCreateFromProvider trivial (fun _ => trivial) trivial
      (fun _ => rfl) rfl rfl rfl) fun user => issues rfl user)
  | rotateRefresh token =>
    exact mapped _ (only_rotateRefresh (fun _ => trivial) (tokenKey rfl) (tokenKey rfl)
      (fun _ => trivial) trivial (fun _ _ _ => rfl) fun family _ _ => tokenKey rfl family)
  | revokeRefresh token => exact mapped _ (only_revokeRefresh (fun _ => trivial) (tokenKey rfl))
  | createLink user url expiresAt =>
    exact mapped _ (only_controllerCreate trivial trivial trivial (fun _ _ => rfl)
      (fun _ _ => rfl) fun slug _ _ => linkKey rfl slug)
  | createShortLink userId url expiresAt =>
    exact .bind (only_create trivial trivial trivial (fun _ _ => rfl) fun _ _ => rfl) fun _ => trivial
  | updateLink userId slug url =>
    exact mapped _ (only_update trivial trivial rfl (linkKey rfl slug)
      fun s _ _ => linkKey rfl s)
  | removeLink userId slug => exact mapped _ (only_remove trivial rfl (linkKey rfl slug))
  | resolve slug =>
    exact mapped _ (only_resolve trivial trivial (linkKey rfl slug) fun _ _ => linkKey rfl slug)
  | cleanup =>
    exact mapped _ (only_cleanup trivial (fun _ _ => rfl) (fun _ => rfl) (linkKey rfl))
  | createKey userId label =>
    exact mapped _ (only_createForUser trivial rfl trivial (fun _ _ => rfl) (fun _ => trivial)
      fun _ _ => rfl)
  | revokeKey userId id => exact mapped _ (only_revoke trivial fun _ => ⟨id, rfl⟩)
  | validateKey plaintext =>
    exact mapped _ (only_validate trivial (fun _ => trivial) fun _ _ => ⟨plaintext, rfl⟩)
  | listKeys userId => exact mapped _ (.bind (.perform trivial) fun _ => trivial)

end Mikrouli
