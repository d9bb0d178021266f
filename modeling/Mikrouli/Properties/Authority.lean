import Mikrouli.Model.Footprint
import Mikrouli.Model.HttpApi
import Mikrouli.Properties.Admission
import Mikrouli.Properties.LinkSteps

/-! On whose behalf the routes act, and whose data they answer with. -/

namespace Mikrouli

open Async

variable {D : Deployment}

/-- The events of one thread, newest first. -/
abbrev HttpEvents (D : Deployment) := List (Event (mikrouliHttp D))

/-! ### What a thread has seen -/

section Seen

variable (es : HttpEvents D)

/-- The thread issued a command of the services and was answered so. -/
def Did (c : Cmd) (a : c.Res) : Prop := .call (.inl (.inl c)) (.ok a) ∈ es

/-- The thread queried ClickHouse and was answered so. -/
def Reported (c : ClickHouseCmd) (a : c.Res) : Prop := .call (.inl (.inr c)) (.ok a) ∈ es

/-- The request in front of the thread's guard. -/
def AskedWith (req : HttpRequest) : Prop := ∃ r, .start r ∈ es ∧ r.guarded? = some req

/-- The request holds an API key, and this row is the one that was found for it. -/
inductive PresentsKey : ApiKey → Prop
  | intro {req : HttpRequest} {plaintext : String} {key : ApiKey} (asked : AskedWith es req)
      (carried : req.header "x-api-key" = some (.one plaintext))
      (found : Did es (.findLiveApiKey (ApiKeysService.parsePrefix plaintext)) (some key))
      (matched : D.platform.bcryptCompare plaintext key.keyHash = true) : PresentsKey key

/-- The credential of the thread's own request was checked, and stands for this user. -/
inductive IdentifiedBy : AuthMethod → String → Prop
  | jwt {req : HttpRequest} {text : String} {payload : JwtPayload} (asked : AskedWith es req)
      (carried : JwtStrategy.jwtFromRequest D.passport req = some (.string text))
      (verified : Did es (.verify D.platform.jwtSecret (D.decode text)) payload)
      (access : JwtStrategy.isAccessToken payload = true) : IdentifiedBy .jwt payload.sub
  | apiKey {key : ApiKey} (presented : PresentsKey es key) : IdentifiedBy .apiKey key.userId

def Identified (userId : String) : Prop := ∃ method, IdentifiedBy es method userId

/-- A visitor without credentials, sent by the landing page, while the operator lets them shorten. -/
structure Visiting : Prop where
  bare : ∃ process req body, .start (.createLink process req body) ∈ es ∧
    carriesApiCredential req = false ∧
    GuestOrAuthenticatedGuard.isBrowserRequest D.guards req
      (GuestOrAuthenticatedGuard.resolveAllowedHostnames D.guards req) = true
  enabled : GuestOrAuthenticatedGuard.isTruthyFlag D.guards.guestShortenEnabled = true

/-- The id that was taken for the Guest's. -/
def GuestId (userId : String) : Prop :=
  (∃ process, .call (.inr (.cachedGuestUserId process)) (.ok (some userId)) ∈ es) ∨
    ∃ guest, Did es (.findUserByEmail GUEST_SENTINEL_EMAIL) (some guest) ∧ guest.id = userId

def AsGuest (userId : String) : Prop := Visiting es ∧ GuestId es userId

/-- The user a link may be made for. -/
def ActsFor (userId : String) : Prop := Identified es userId ∨ AsGuest es userId

/-- What the body the thread was asked with makes of it, once it is through the pipe. -/
inductive Receives : Req → Prop
  | createLink {process : Nat} {req : HttpRequest} {body : Json}
      {user : LinksController.RequestUser} {r : Req}
      (asked : .start (.createLink process req body) ∈ es)
      (passed : receive D.platform D.validators (.postUrls user body) = .ok r) : Receives r
  | updateLink {req : HttpRequest} {userId slug : String} {body : Json} {r : Req}
      (asked : .start (.updateLink req slug body) ∈ es)
      (passed : receive D.platform D.validators (.patchUrl userId slug body) = .ok r) : Receives r
  | createShortLink {req : HttpRequest} {userId : String} {arguments : Json} {r : Req}
      (asked : .start (.createShortLink req arguments) ∈ es)
      (passed : receive D.platform D.validators (.createShortLink userId arguments) = .ok r) :
      Receives r

/-- The slug leads to the destination because the thread was asked to, for a user it acts for: it
made the link, or it changes a link of the user's. -/
inductive Submits : String → String → String → Prop
  | created {fields : LinkFields} {l : Link} {r : Req} (acts : ActsFor es l.userId)
      (received : Receives es r) (creates : r.Creates l.originalUrl)
      (inserted : Did es (.insertLinkWithOutbox fields) l) : Submits l.userId l.slugKey l.originalUrl
  | edited {slug url : String} {l : Link} (identified : Identified es l.userId)
      (received : Receives es (.updateLink l.userId slug url))
      (found : Did es (.findLink slug) (some l)) : Submits l.userId (bpchar slug) url

/-- The destination was read from the row of the slug. -/
def ReadsRow (slug url : String) : Prop :=
  ∃ l, Did es (.findLink slug) (some l) ∧ l.originalUrl = url

/-- GitHub vouched for the identity, on the way back of a sign-in that was started here. -/
def FromGithub (identity : GithubIdentity) : Prop :=
  ∃ state profile value,
    .start (.session (.githubCallback (.code state (some profile)))) ∈ es ∧
    Did es (.redisGetDel (GithubStateStore.stateKey state)) (some value) ∧
    validateProfile profile = some identity

/-- The user was signed in with its password, or through GitHub. -/
inductive SignsIn : String → Prop
  | password {body : Json} {dto : Instance} {user : User} {hash : String}
      (asked : .start (.session (.login body)) ∈ es)
      (valid : ValidationPipe.transform (LoginDto D.texts) body = .ok dto)
      (found : Did es (.findUserByEmail (dto.text "email")) (some user))
      (hashed : user.passwordHash = some hash) (nonempty : hash ≠ "")
      (matched : D.platform.bcryptCompare (dto.text "password") hash = true) : SignsIn user.id
  | known {identity : GithubIdentity} {account : ProviderAccount} {user : User}
      (returned : FromGithub es identity)
      (found : Did es (.findProviderAccount identity.providerUserId) (some account))
      (owner : Did es (.findUserById account.userId) (some user))
      (committed : Did es .commit ()) : SignsIn user.id
  | linked {identity : GithubIdentity} {account : ProviderAccount} {user : User}
      (returned : FromGithub es identity)
      (found : Did es (.findUserByEmail identity.email) (some user))
      (saved : Did es (.saveProviderAccount identity.providerUserId user.id) account)
      (committed : Did es .commit ()) : SignsIn user.id

/-- A refresh token of the user came in, and the allowlist stands for it. -/
inductive PresentsRefresh : String → Prop
  | intro {token : Token} {payload : JwtPayload} {jti family : String}
      (asked : .start (.session (.refresh (some token))) ∈ es)
      (verified : Did es (.verify D.platform.jwtRefreshSecret token) payload)
      (type : payload.type = some REFRESH_TOKEN_TYPE)
      (claims : refreshClaims payload = some (jti, family))
      (listed : Did es (.redisGet (buildRevocationKey family)) (some jti)) :
      PresentsRefresh payload.sub

/-- Such a token was taken in. -/
structure Renews (userId : String) : Prop where
  presented : PresentsRefresh es userId
  found : ∃ user, Did es (.findUserById userId) (some user)

def Authenticated (userId : String) : Prop := SignsIn es userId ∨ Renews es userId

/-- The thread was handed a refresh token of the family. -/
def HandedFamily (family : String) : Prop :=
  ∃ token payload, (.start (.session (.refresh (some token))) ∈ es ∨
      .start (.session (.logout (some token))) ∈ es) ∧
    Did es (.verify D.platform.jwtRefreshSecret token) payload ∧ payload.family = some family

/-- The link that was found belongs to the user the thread acts for. -/
def OwnsLink (slug : String) : Prop :=
  ∃ l, Did es (.findLink slug) (some l) ∧ Identified es l.userId

/-- The slug is the one in the path of the thread's own request, which its guard has let through. -/
def AsksFor (slug : String) : Prop :=
  ∃ r, .start r ∈ es ∧ r.slug? = some slug ∧ (r.guarded? = none ∨ ∃ userId, Identified es userId)

/-- The cleanup has found the link to be past its expiry. -/
def FindsExpired (slug : String) : Prop :=
  .start .cleanup ∈ es ∧ ∃ now take expired, Did es .dateNow now ∧
    Did es (.findExpiredLinks now take) expired ∧ ∃ l ∈ expired, l.shortUrl.1 = slug ∧
      ∃ x, l.expiresAt = some x ∧ x < now

/-- The user is the one the thread acts for or is about to sign in. -/
inductive MayRead : String → Prop
  | identified {userId : String} (identified : Identified es userId) : MayRead userId
  | authenticated {userId : String} (authenticated : Authenticated es userId) : MayRead userId
  | refresh {userId : String} (presented : PresentsRefresh es userId) : MayRead userId
  | github {identity : GithubIdentity} {account : ProviderAccount} (returned : FromGithub es identity)
      (found : Did es (.findProviderAccount identity.providerUserId) (some account)) :
      MayRead account.userId

/-- The email is the one somebody signs in with, or the Guest's. -/
inductive MayLookUp : String → Prop
  | login {body : Json} {dto : Instance} (asked : .start (.session (.login body)) ∈ es)
      (valid : ValidationPipe.transform (LoginDto D.texts) body = .ok dto) :
      MayLookUp (dto.text "email")
  | github {identity : GithubIdentity} (returned : FromGithub es identity) :
      MayLookUp identity.email
  | guest (visiting : Visiting es) : MayLookUp GUEST_SENTINEL_EMAIL

/-- What a thread must have seen before it issues a command on someone's behalf. -/
def Authorised : httpApi.Cmd → Prop
  | .inl (.inl (.sign _ payload _)) => Authenticated es payload.sub
  | .inl (.inl (.redisGet key)) => ∀ family, key = buildRevocationKey family → HandedFamily es family
  | .inl (.inl (.redisSet key value _)) =>
    (∀ family, key = buildRevocationKey family → ∃ userId, Authenticated es userId) ∧
      ∀ slug, key = LinkCacheService.cacheKey slug →
        (∃ userId, Submits es userId (bpchar slug) value) ∨ ReadsRow es slug value
  | .inl (.inl (.redisDel key)) => ∀ family, key = buildRevocationKey family → HandedFamily es family
  | .inl (.inl (.findUserById userId)) => MayRead es userId
  | .inl (.inl (.findUserByEmail email)) => MayLookUp es email
  | .inl (.inl (.insertUser email passwordHash)) =>
    (∃ body dto, .start (.register body) ∈ es ∧
      ValidationPipe.transform (RegisterDto D.texts) body = .ok dto ∧ dto.text "email" = email) ∨
    (∃ identity, FromGithub es identity ∧ identity.email = email ∧ passwordHash = none)
  | .inl (.inl (.findProviderAccount providerUserId))
  | .inl (.inl (.saveProviderAccount providerUserId _)) =>
    ∃ identity, FromGithub es identity ∧ identity.providerUserId = providerUserId
  | .inl (.inl (.findLink slug)) => AsksFor es slug
  | .inl (.inl (.insertLinkWithOutbox fields)) =>
    ActsFor es fields.userId ∧ ∃ r, Receives es r ∧ r.Creates fields.originalUrl
  | .inl (.inl (.countLinks userId _ _)) => Identified es userId
  | .inl (.inl (.updateLink slug userId url)) =>
    Identified es userId ∧ Receives es (.updateLink userId slug url) ∧
      ∃ l, Did es (.findLink slug) (some l) ∧ l.userId = userId
  | .inl (.inl (.deleteLink slug)) => FindsExpired es slug ∨ OwnsLink es slug
  | .inl (.inl (.findLiveApiKey keyPrefix)) => ∃ req plaintext, AskedWith es req ∧
      req.header "x-api-key" = some (.one plaintext) ∧
        ApiKeysService.parsePrefix plaintext = keyPrefix
  -- an API key neither makes nor ends API keys, nor lists them
  | .inl (.inl (.countKeys userId _ _)) | .inl (.inl (.saveApiKey userId _ _ _))
  | .inl (.inl (.revokeApiKey _ userId _)) | .inl (.inl (.listApiKeys userId)) =>
    IdentifiedBy es .jwt userId
  | .inl (.inl (.touchApiKey id _)) => ∃ key, PresentsKey es key ∧ key.id = id
  | .inl (.inr (.total slug)) | .inl (.inr (.byDay slug)) | .inl (.inr (.topCountries slug))
  | .inl (.inr (.topBrowsers slug)) => OwnsLink es slug
  | .inr (.listLinks userId) => Identified es userId
  | .inr (.cachedGuestUserId _) => Visiting es
  | .inr (.cacheGuestUserId _ userId) => AsGuest es userId
  | _ => True

/-! ### What a thread may answer -/

/-- The public part of a row of users that the thread has read. -/
def ProfileOf (profile : PublicUser) : Prop :=
  ∃ user : User, (Did es (.findUserById user.id) (some user) ∨
      ∃ email, Did es (.findUserByEmail email) (some user)) ∧
    profile = ⟨user.id, user.email, user.createdAt⟩

/-- The email is the submitted one, and the rest is of the row just inserted for it, or made up. -/
def ShowsRegistered (profile : PublicUser) : Prop :=
  ∃ body dto, .start (.register body) ∈ es ∧
    ValidationPipe.transform (RegisterDto D.texts) body = .ok dto ∧ profile.email = dto.text "email" ∧
      ((∃ passwordHash user, Did es (.insertUser profile.email passwordHash) user ∧
          profile = ⟨user.id, user.email, user.createdAt⟩) ∨
        (Did es .randomUUID profile.id ∧ Did es .dateNow profile.createdAt))

/-- The row is the one the thread has made for the user it acts for, or the one it has read and
found to be its own user's, with the destination it was asked to give it. -/
inductive ShowsLink : Link → Prop
  | made {fields : LinkFields} {l : Link} (acts : ActsFor es l.userId)
      (inserted : Did es (.insertLinkWithOutbox fields) l) : ShowsLink l
  | edited {slug url : String} {l : Link} (identified : Identified es l.userId)
      (found : Did es (.findLink slug) (some l))
      (received : Receives es (.updateLink l.userId slug url)) :
      ShowsLink { l with originalUrl := url }

/-- The row is the one just saved for the user of an access token, and the plaintext holds the
secret that was drawn for it. -/
def ShowsNewKey (created : CreatedApiKey) : Prop :=
  ∃ userId label keyHash keyPrefix random row, IdentifiedBy es .jwt userId ∧
    Did es .randomSecret random ∧ Did es (.saveApiKey userId label keyHash keyPrefix) row ∧
      row.userId = userId ∧ created = buildCreatedResult row (KEY_NAMESPACE ++ random) keyPrefix

/-- The rows are all those that were found for the user. -/
def ShowsKeys (keys : List ApiKeySummary) : Prop :=
  ∃ userId rows, IdentifiedBy es .jwt userId ∧ Did es (.listApiKeys userId) rows ∧
    (∀ k ∈ rows, k.userId = userId) ∧ keys = rows.map extractSummary

def ShowsLinks (links : List PublicLink) : Prop :=
  ∃ userId rows, Identified es userId ∧ .call (.inr (.listLinks userId)) (.ok rows) ∈ es ∧
    (∀ l ∈ rows, l.userId = userId) ∧ links = rows.map toPublicLinkSchema

/-- The figures are what ClickHouse has answered about the slug of a link of the user's. -/
def ShowsStats (response : StatsResponse) : Prop :=
  OwnsLink es response.slug ∧ ∃ total byDay countries browsers,
    Reported es (.total response.slug) total ∧ Reported es (.byDay response.slug) byDay ∧
    Reported es (.topCountries response.slug) countries ∧
    Reported es (.topBrowsers response.slug) browsers ∧
      response = toStatsResponse response.slug (assembleStats total byDay countries browsers)

/-- The limits are those of the user's row, and the counts are the user's in the month of the
clock. -/
structure ShowsUsage (user : User) (summary : UsageSummaryResponse) : Prop where
  identified : IdentifiedBy es .jwt user.id
  found : Did es (.findUserById user.id) (some user)
  linkLimit : summary.linkLimit = UsageService.resolveLinkLimit D.platform user
  keyLimit : summary.keyLimit = UsageService.resolveKeyLimit D.platform user
  links : ∃ now, Did es .dateNow now ∧
    Did es (.countLinks user.id (getMonthBounds now).1 (getMonthBounds now).2) summary.linksCreated
  keys : ∃ now, Did es .dateNow now ∧
    Did es (.countKeys user.id (getMonthBounds now).1 (getMonthBounds now).2) summary.keysCreated
  linksRemaining : summary.linksRemaining = max 0 (summary.linkLimit - summary.linksCreated)
  keysRemaining : summary.keysRemaining = max 0 (summary.keyLimit - summary.keysCreated)

/-- Whose data an answer may hold. -/
def Reveals : HttpAns → Prop
  | .register response => ∀ profile, response.body = .user profile → ShowsRegistered es profile
  | .session response =>
    (∀ cookie, .session cookie ∈ response.setCookie →
      Authenticated es cookie.value.payload.sub) ∧
    ∀ profile, response.body = some (.user profile) →
      Authenticated es profile.id ∧ ProfileOf es profile
  | .profile profile => IdentifiedBy es .jwt profile.id ∧ ProfileOf es profile
  | .links links => ShowsLinks es links
  | .stats response => ShowsStats es response
  | .usage summary => ∃ user, ShowsUsage es user summary
  | .api (.link link) => ∃ l, ShowsLink es l ∧ link = toPublicLinkSchema l
  | .api (.key created) => ShowsNewKey es created
  | .api (.keys keys) => ShowsKeys es keys
  | .api .noContent | .api (.cleaned _) => True
  -- the routes answer nothing else that the services can return
  | .api _ => False
  -- a destination is public, but nothing else is shown than the one of the slug
  | .redirect (.found location) => ∃ slug ip userAgent, .start (.redirect slug ip userAgent) ∈ es ∧
      (Did es (.redisGet (LinkCacheService.cacheKey slug)) (some location) ∨
        ReadsRow es slug location)
  | .redirect (.gone _) | .redirect (.notFound _) | .authorize _ | .rejected _ => True

end Seen

/-! ### Growing histories -/

section Growth

variable {es es' : HttpEvents D} {userId : String} (grown : es ⊆ es')

include grown

theorem PresentsKey.mono {key : ApiKey} (presented : PresentsKey es key) : PresentsKey es' key := by
  obtain ⟨⟨r, started, guarded⟩, carried, found, matched⟩ := presented
  exact .intro ⟨r, grown started, guarded⟩ carried (grown found) matched

theorem IdentifiedBy.mono {method : AuthMethod} (identified : IdentifiedBy es method userId) :
    IdentifiedBy es' method userId := by
  cases identified with
  | jwt asked carried verified access =>
    obtain ⟨r, started, guarded⟩ := asked
    exact .jwt ⟨r, grown started, guarded⟩ carried (grown verified) access
  | apiKey presented => exact .apiKey (presented.mono grown)

theorem Identified.mono (identified : Identified es userId) : Identified es' userId :=
  identified.imp fun _ identified => identified.mono grown

theorem GuestId.mono (guest : GuestId es userId) : GuestId es' userId := by
  rcases guest with ⟨process, cached⟩ | ⟨guest, found, id⟩
  · exact .inl ⟨process, grown cached⟩
  · exact .inr ⟨guest, grown found, id⟩

theorem Visiting.mono (visiting : Visiting es) : Visiting es' := by
  obtain ⟨⟨process, req, body, started, bare, browser⟩, enabled⟩ := visiting
  exact ⟨⟨process, req, body, grown started, bare, browser⟩, enabled⟩

theorem AsGuest.mono (guest : AsGuest es userId) : AsGuest es' userId :=
  ⟨guest.1.mono grown, guest.2.mono grown⟩

theorem ActsFor.mono (acts : ActsFor es userId) : ActsFor es' userId :=
  acts.imp (Identified.mono grown) (AsGuest.mono grown)

theorem Receives.mono {r : Req} (received : Receives es r) : Receives es' r := by
  cases received with
  | createLink asked passed => exact .createLink (grown asked) passed
  | updateLink asked passed => exact .updateLink (grown asked) passed
  | createShortLink asked passed => exact .createShortLink (grown asked) passed

theorem Submits.mono {slugKey url : String} (submits : Submits es userId slugKey url) :
    Submits es' userId slugKey url := by
  cases submits with
  | created acts received creates inserted =>
    exact .created (acts.mono grown) (received.mono grown) creates (grown inserted)
  | edited identified received found =>
    exact .edited (identified.mono grown) (received.mono grown) (grown found)

theorem ReadsRow.mono {slug url : String} (reads : ReadsRow es slug url) : ReadsRow es' slug url := by
  obtain ⟨l, found, same⟩ := reads
  exact ⟨l, grown found, same⟩

theorem FromGithub.mono {identity : GithubIdentity} (returned : FromGithub es identity) :
    FromGithub es' identity := by
  obtain ⟨state, profile, value, started, consumed, valid⟩ := returned
  exact ⟨state, profile, value, grown started, grown consumed, valid⟩

theorem SignsIn.mono (signs : SignsIn es userId) : SignsIn es' userId := by
  cases signs with
  | password asked valid found hashed nonempty matched =>
    exact .password (grown asked) valid (grown found) hashed nonempty matched
  | known returned found owner committed =>
    exact .known (returned.mono grown) (grown found) (grown owner) (grown committed)
  | linked returned found saved committed =>
    exact .linked (returned.mono grown) (grown found) (grown saved) (grown committed)

theorem PresentsRefresh.mono (presented : PresentsRefresh es userId) :
    PresentsRefresh es' userId := by
  obtain ⟨asked, verified, type, claims, listed⟩ := presented
  exact .intro (grown asked) (grown verified) type claims (grown listed)

theorem Renews.mono (renews : Renews es userId) : Renews es' userId := by
  obtain ⟨presented, user, found⟩ := renews
  exact ⟨presented.mono grown, user, grown found⟩

theorem Authenticated.mono (authenticated : Authenticated es userId) : Authenticated es' userId :=
  authenticated.imp (SignsIn.mono grown) (Renews.mono grown)

theorem OwnsLink.mono {slug : String} (owns : OwnsLink es slug) : OwnsLink es' slug := by
  obtain ⟨l, found, owner⟩ := owns
  exact ⟨l, grown found, owner.mono grown⟩

theorem AsksFor.mono {slug : String} (asks : AsksFor es slug) : AsksFor es' slug := by
  obtain ⟨r, started, path, passed⟩ := asks
  exact ⟨r, grown started, path, passed.imp id (Exists.imp fun _ => Identified.mono grown)⟩

theorem FindsExpired.mono {slug : String} (finds : FindsExpired es slug) : FindsExpired es' slug := by
  obtain ⟨started, now, take, expired, read, found, past⟩ := finds
  exact ⟨grown started, now, take, expired, grown read, grown found, past⟩

theorem ShowsRegistered.mono {profile : PublicUser} (shown : ShowsRegistered es profile) :
    ShowsRegistered es' profile := by
  obtain ⟨body, dto, asked, valid, email, ⟨passwordHash, user, inserted, same⟩ | decoy⟩ := shown
  · exact ⟨body, dto, grown asked, valid, email, .inl ⟨passwordHash, user, grown inserted, same⟩⟩
  · exact ⟨body, dto, grown asked, valid, email, .inr ⟨grown decoy.1, grown decoy.2⟩⟩

theorem ShowsLink.mono {l : Link} (shown : ShowsLink es l) : ShowsLink es' l := by
  cases shown with
  | made acts inserted => exact .made (acts.mono grown) (grown inserted)
  | edited identified found received =>
    exact .edited (identified.mono grown) (grown found) (received.mono grown)

theorem ProfileOf.mono {profile : PublicUser} (shown : ProfileOf es profile) :
    ProfileOf es' profile := by
  obtain ⟨user, found, same⟩ := shown
  exact ⟨user, found.imp (fun did => grown did) (Exists.imp fun _ did => grown did), same⟩

end Growth

/-! ### Programs of the services -/

section Programs

variable {α β : Type} {es : HttpEvents D} {ok : httpApi.Cmd → Prop}
  {φ : HttpEvents D → httpApi.Cmd → Prop}

theorem within_bind (p : Prog α) (f : α → Prog β) :
    within (p >>= f) = within p >>= fun a => within (f a) := by
  rw [within, Prog.lift_bind, Prog.lift_bind]
  rfl

theorem within_tryCatch (p : Prog α) (h : AppError → Prog α) :
    within (p.tryCatch h) = (within p).tryCatch fun e => within (h e) := by
  rw [within, Prog.lift_tryCatch, Prog.lift_tryCatch]
  rfl

/-- What the command can have answered. -/
def MayAnswer (D : Deployment) (c : Cmd) (a : c.Res) : Prop :=
  ∃ i ch w w', exec D.platform i c ch w = some (.ok a, w')

/-- One command of the services, and what its answer may be. -/
theorem awaits {c : Cmd} (pre : φ es (.inl (.inl c))) :
    Along φ (OnSuccess fun es' a => Did es' c a ∧ MayAnswer D c a) (within (await c)) es := by
  rw [within, await, Prog.lift_perform, Prog.lift_perform]
  refine Along.perform (S := httpApi) pre ?_
  rintro res ⟨i, ch, w, w', returned⟩ a rfl
  obtain ⟨⟨_, w₁⟩, returned₁, same₁⟩ := Option.map_eq_some_iff.mp returned
  obtain ⟨⟨_, w₂⟩, returned₂, same₂⟩ := Option.map_eq_some_iff.mp returned₁
  cases same₁
  cases same₂
  exact ⟨List.mem_cons_self, i, ch, _, _, returned₂⟩

theorem only_within {p : Prog α} (only : p.Only fun c => ok (.inl (.inl c))) :
    (within p).Only ok :=
  .lift (.lift only)

end Programs

/-! ### Guards -/

section Guards

variable {es : HttpEvents D} {req : HttpRequest}

theorem jwtAuthGuard_mediated (asked : AskedWith es req) :
    Along Authorised (OnSuccess fun es' userId => IdentifiedBy es' .jwt userId)
      (JwtAuthGuard.run D req) es := by
  unfold JwtAuthGuard.run
  split
  next text carried =>
    refine Along.next (Q := fun es' user => IdentifiedBy es' .jwt user.id) ?_
      fun es' user _ identified => .pure identified
    rw [JwtStrategy.authenticate, within_bind, within_tryCatch]
    refine Along.next (.handled (awaits trivial) fun _ _ _ => .throw) fun es' payload grown did => ?_
    unfold JwtStrategy.validate
    split
    next access =>
      obtain ⟨r, started, guarded⟩ := asked
      exact .pure (.jwt ⟨r, grown started, guarded⟩ carried did.1 access)
    · exact .throw
  · exact .throw

theorem extractApiKeyHeader_eq_some {apiKey : String}
    (extracted : ApiKeyAuthGuard.extractApiKeyHeader req = some apiKey) :
    req.header "x-api-key" = some (.one apiKey) := by
  unfold ApiKeyAuthGuard.extractApiKeyHeader at extracted
  split at extracted
  next header carried =>
    cases extracted
    exact carried
  · cases extracted

theorem apiKeyAuthGuard_mediated (asked : AskedWith es req) :
    Along Authorised (OnSuccess fun es' userId => IdentifiedBy es' .apiKey userId)
      (ApiKeyAuthGuard.run D req) es := by
  unfold ApiKeyAuthGuard.run
  split
  · exact .throw
  next apiKey extracted =>
    have carried := extractApiKeyHeader_eq_some (Option.filter_eq_some_iff.mp extracted).1
    refine Along.next (Q := fun es' owner => ∀ userId, owner = some userId →
      IdentifiedBy es' .apiKey userId) ?_ fun es' owner _ identified => ?_
    · rw [ApiKeysService.validate, within_bind]
      refine Along.next (awaits ⟨req, apiKey, asked, carried, rfl⟩) fun es' found grown did => ?_
      cases found with
      | none => exact .pure fun _ same => by cases same
      | some key =>
        simp only
        split
        · exact .pure fun _ same => by cases same
        next matched =>
          rw [Bool.not_eq_false] at matched
          obtain ⟨r, started, guarded⟩ := asked
          have presented : PresentsKey es' key :=
            .intro ⟨r, grown started, guarded⟩ carried did.1 matched
          rw [within_bind]
          refine Along.next (Along.permitted (only_within ?_)) ?_
          · refine .tryCatch (.bind (.perform fun _ _ => trivial) fun now => .perform ?_) ?_
            · exact fun es'' grown' => ⟨key, presented.mono grown', rfl⟩
            · exact fun _ => trivial
          · rintro es'' - grown' -
            refine .pure fun userId same => ?_
            cases same
            exact .apiKey (presented.mono grown')
    · cases owner with
      | none => exact .throw
      | some userId => exact .pure (identified userId rfl)

theorem bearerOrApiKeyGuard_mediated (asked : AskedWith es req) :
    Along Authorised (OnSuccess fun es' userId => Identified es' userId)
      (BearerOrApiKeyGuard.run D req) es := by
  unfold BearerOrApiKeyGuard.run
  split
  · refine (jwtAuthGuard_mediated asked).mono fun es' r post userId same => ?_
    exact ⟨.jwt, post userId same⟩
  · refine (apiKeyAuthGuard_mediated asked).mono fun es' r post userId same => ?_
    exact ⟨.apiKey, post userId same⟩
  · exact .throw
  · exact .throw

theorem rememberedGuestUserId_mediated {process : Nat} (visiting : Visiting es) :
    Along Authorised (OnSuccess fun es' userId => AsGuest es' userId)
      (rememberedGuestUserId process : HttpProg String) es := by
  refine Along.next (Q := fun es' cached => ∀ userId, cached = some userId → GuestId es' userId)
    (Along.perform (S := httpApi) visiting ?_) fun es₁ cached grown₁ known => ?_
  · rintro res - _ rfl userId rfl
    exact .inl ⟨process, List.mem_cons_self⟩
  replace visiting := visiting.mono grown₁
  refine Along.next (Q := fun es' userId => AsGuest es' userId) ?_ fun es₂ userId _ known => ?_
  · cases cached with
    | some userId => exact .pure ⟨visiting, known userId rfl⟩
    | none =>
      rw [UsersService.getGuestUserId, within_bind]
      refine Along.next (awaits (.guest visiting)) fun es' found grown did => ?_
      cases found with
      | none => exact .throw
      | some guest => exact .pure ⟨visiting.mono grown, .inr ⟨guest, did.1, rfl⟩⟩
  · simp only
    split
    · refine Along.next (Q := fun es' _ => AsGuest es' userId) (Along.perform (S := httpApi) known ?_)
        fun es₃ _ _ known => .pure known
      rintro res - _ rfl
      exact known.mono fun _ member => List.mem_cons_of_mem _ member
    · exact .pure known

/-! ### The guards without their commands -/

section Eval

variable {σ : Type} (handle : (c : httpApi.Cmd) → σ → Except AppError (httpApi.Res c) × σ)

/-- What a guard finds where every command is answered at once. -/
def Deployment.finds (D : Deployment) (s : σ) (guard : HttpProg String) : Except Exception String :=
  (guard.eval handle s).1.mapError fun err => err.exception D.texts

def Deployment.guardsIn (D : Deployment) (process : Nat) (s : σ) : GuardEnv :=
  { D.guards with
    authenticate := fun method req =>
      match method with
      | .jwt => D.finds handle s (JwtAuthGuard.run D req)
      | .apiKey => D.finds handle s (ApiKeyAuthGuard.run D req)
    getGuestUserId := D.finds handle s (rememberedGuestUserId process) }

theorem finds_then {α : Type} (s : σ) (guard : HttpProg String) (f : String → α) :
    ((guard >>= fun id => pure (f id)).eval handle s).1.mapError (fun err => err.exception D.texts) =
      (D.finds handle s guard).map f := by
  rw [Prog.eval_bind, Deployment.finds]
  rcases guard.eval handle s with ⟨_ | _, _⟩ <;> rfl

theorem finds_bearerOrApiKey (process : Nat) (s : σ) (req : HttpRequest) :
    (D.finds handle s (BearerOrApiKeyGuard.run D req)).map (fun id => ⟨id, false⟩) =
      BearerOrApiKeyGuard.canActivate (D.guardsIn handle process s) req := by
  obtain ⟨method, chosen, -⟩ := chooseAuthMethod_eq req
  unfold BearerOrApiKeyGuard.run BearerOrApiKeyGuard.canActivate
  rw [chosen]
  rcases method with _ | _ | _
  · rfl
  · change _ = (do
      let id ← D.finds handle s (JwtAuthGuard.run D req)
      pure (⟨id, false⟩ : LinksController.RequestUser))
    cases D.finds handle s (JwtAuthGuard.run D req) <;> rfl
  · change _ = (do
      let id ← D.finds handle s (ApiKeyAuthGuard.run D req)
      pure (⟨id, false⟩ : LinksController.RequestUser))
    cases D.finds handle s (ApiKeyAuthGuard.run D req) <;> rfl

/-- The guard of `POST /api/urls` with its commands decides as the guard without them. -/
theorem eval_guestOrAuthenticated (process : Nat) (s : σ) (req : HttpRequest) :
    ((GuestOrAuthenticatedGuard.run D process req).eval handle s).1.mapError
        (fun err => err.exception D.texts) =
      GuestOrAuthenticatedGuard.canActivate (D.guardsIn handle process s) req := by
  unfold GuestOrAuthenticatedGuard.run GuestOrAuthenticatedGuard.canActivate
  split
  · rw [finds_then, finds_bearerOrApiKey]
  · split
    next disabled => exact (if_pos disabled).symm
    next enabled =>
      refine Eq.trans ?_ (if_neg enabled).symm
      split
      next stranger => exact (if_pos stranger).symm
      next browser =>
        refine Eq.trans ?_ (if_neg browser).symm
        rw [finds_then]
        change _ = (do
          let guestUserId ← D.finds handle s (rememberedGuestUserId process)
          pure (⟨guestUserId, true⟩ : LinksController.RequestUser))
        cases D.finds handle s (rememberedGuestUserId process) <;> rfl

end Eval

end Guards

end Mikrouli
