import Mikrouli.Model.Commands
import Mikrouli.Properties.Authority
import Mikrouli.Properties.Tokens

/-! Every route issues only what its thread is authorised to, and answers with nobody else's data. -/

namespace Mikrouli

open Async Store

variable {D : Deployment} {es : HttpEvents D} {req : HttpRequest} {userId : String}

/-! ### Answers -/

section Answers

theorem answers_insertLinkWithOutbox {fields : LinkFields} {l : Link}
    (answers : MayAnswer D (.insertLinkWithOutbox fields) l) :
    l.userId = fields.userId ∧ l.originalUrl = fields.originalUrl := by
  obtain ⟨i, ch, w, w', returned⟩ := answers
  rcases exec_insertLinkWithOutbox returned with ⟨-, e, failed⟩ | ⟨link, links, same, -, row, -⟩
  · cases failed
  · cases same
    rw [row]
    exact ⟨rfl, rfl⟩

theorem answers_findLink {slug : String} {l : Link}
    (answers : MayAnswer D (.findLink slug) (some l)) : l.slugKey = bpchar slug := by
  obtain ⟨i, ch, w, w', returned⟩ := answers
  obtain ⟨-, failed | found⟩ := exec_findLink returned
  · cases failed
  · exact (World.link?_eq_some.mp (Except.ok.inj found).symm).2

theorem answers_findExpiredLinks {now take : Nat} {expired : List Link}
    (answers : MayAnswer D (.findExpiredLinks now take) expired) :
    ∀ l ∈ expired, ∃ x, l.expiresAt = some x ∧ x < now := by
  obtain ⟨i, ch, w, w', returned⟩ := answers
  obtain ⟨-, failed | ⟨batch, same, answer⟩⟩ := exec_findExpiredLinks returned
  · cases failed
  cases same
  intro l member
  simp only [World.isExpiredBatch, decide_eq_true_eq] at answer
  have past := (List.mem_filter.mp (answer.2.1 l member)).2
  cases expires : l.expiresAt with
  | none =>
    rw [expires] at past
    cases past
  | some x =>
    rw [expires] at past
    exact ⟨x, rfl, of_decide_eq_true past⟩

theorem answers_insertUser {email : String} {passwordHash : Option String} {user : User}
    (answers : MayAnswer D (.insertUser email passwordHash) user) : user.email = email := by
  obtain ⟨i, ch, w, w', returned⟩ := answers
  obtain ⟨-, ⟨-, failed, -⟩ | ⟨-, -, ⟨failed, -⟩ | ⟨row, rfl, same, -⟩⟩⟩ := exec_insertUser returned
  · cases failed
  · cases failed
  · cases same
    rfl

theorem answers_saveApiKey {label keyHash keyPrefix : String} {key : ApiKey}
    (answers : MayAnswer D (.saveApiKey userId label keyHash keyPrefix) key) :
    key.userId = userId := by
  obtain ⟨i, ch, w, w', returned⟩ := answers
  rcases exec_saveApiKey returned with ⟨-, failed | ⟨failed, -⟩⟩ | ⟨row, keys, same, -, -, rfl, -⟩
  · cases failed
  · cases failed
  · cases same
    rfl

theorem answers_findUserById {id : String} {user : User}
    (answers : MayAnswer D (.findUserById id) (some user)) : user.id = id := by
  obtain ⟨i, ch, w, w', returned⟩ := answers
  obtain ⟨-, ⟨-, failed⟩ | same⟩ := exec_findUserById returned
  · cases failed
  · obtain ⟨v, -, -, -, id⟩ := World.userById_eq_some (Except.ok.inj same).symm
    exact id

theorem answers_sign {secret : String} {payload : JwtPayload} {expiresIn : Nat} {t : Jwt}
    (answers : MayAnswer D (.sign secret payload expiresIn) t) : t.payload = payload := by
  obtain ⟨i, ch, w, w', returned⟩ := answers
  rw [Except.ok.inj (exec_sign returned)]

theorem answers_listApiKeys {keys : List ApiKey} (answers : MayAnswer D (.listApiKeys userId) keys) :
    ∀ k ∈ keys, k.userId = userId := by
  obtain ⟨i, ch, w, w', returned⟩ := answers
  intro k member
  obtain ⟨-, failed | same⟩ := exec_listApiKeys returned
  · cases failed
  · cases same
    rw [List.mem_mergeSort, List.mem_filter, decide_eq_true_eq] at member
    exact member.2

theorem linksOf_userId {i : Nat} {ch : Choice} {w w' : (mikrouliHttp D).World} {rows : List Link}
    (returned : (mikrouliHttp D).exec i (.inr (.listLinks userId)) ch w = some (.ok rows, w')) :
    ∀ l ∈ rows, l.userId = userId := by
  obtain ⟨⟨res, memory⟩, queried, same⟩ := Option.map_eq_some_iff.mp returned
  cases same
  simp only [httpQuery] at queried
  split at queried
  · cases queried
  · split at queried
    next sorted =>
      cases queried
      rw [World.isLinksOf, Bool.and_eq_true, decide_eq_true_eq] at sorted
      intro l member
      have row := sorted.1.mem_iff.mp member
      rw [List.mem_filter, decide_eq_true_eq] at row
      exact row.2
    · cases queried

end Answers

/-! ### Harmless commands -/

/-- A program whose commands are all authorised by what the thread has seen so far. -/
theorem within_only {α : Type} {p : Prog α}
    (only : p.Only fun c => ∀ es', es ⊆ es' → Authorised (D := D) es' (.inl (.inl c))) :
    Along Authorised (OnSuccess fun _ _ => True) (within p) es :=
  .permitted (only_within only)

theorem authorised_cacheSet {slug value : String} {ex : Option Nat}
    (source : (∃ userId, Submits es userId (bpchar slug) value) ∨ ReadsRow es slug value) :
    Authorised es (.inl (.inl (.redisSet (LinkCacheService.cacheKey slug) value ex))) := by
  refine ⟨fun family same => absurd same (cacheKey_ne_buildRevocationKey slug family), ?_⟩
  intro slug' same
  rw [← cacheKey_inj same]
  exact source

theorem authorised_cacheDel {slug : String} :
    Authorised es (.inl (.inl (.redisDel (LinkCacheService.cacheKey slug)))) :=
  fun family same => absurd same (cacheKey_ne_buildRevocationKey slug family)

theorem authorised_cacheGet {slug : String} :
    Authorised es (.inl (.inl (.redisGet (LinkCacheService.cacheKey slug)))) :=
  fun family same => absurd same (cacheKey_ne_buildRevocationKey slug family)

theorem cacheSet_mediated {slug url : String} {expiresAt : Option Int}
    (source : (∃ userId, Submits es userId (bpchar slug) url) ∨ ReadsRow es slug url) :
    Along Authorised (OnSuccess fun _ _ => True)
      (within (LinkCacheService.set slug url expiresAt)) es :=
  within_only <| only_cacheSet (fun _ _ => trivial) fun _ _ grown =>
    authorised_cacheSet (source.imp (Exists.imp fun _ => Submits.mono grown) (ReadsRow.mono grown))

theorem cacheDel_mediated {slug : String} :
    Along Authorised (OnSuccess fun _ _ => True) (within (LinkCacheService.del slug)) es :=
  within_only (only_cacheDel fun _ _ => authorised_cacheDel)

/-! ### Links -/

section Links

variable {url slug : String} {explicit : Option (Option Int)} {r : Req}

/-- The link is the user's, and leads where the thread was asked to make it lead. -/
structure MadeFor (es : HttpEvents D) (userId : String) (l : Link) : Prop where
  owner : l.userId = userId
  shown : ShowsLink es l
  submits : Submits es l.userId l.slugKey l.originalUrl

/-- Whatever the number of attempts, the link that is made is the one that was asked for. -/
theorem createUnmetered_mediated (acts : ActsFor es userId) (received : Receives es r)
    (creates : r.Creates url) :
    Along Authorised (OnSuccess fun es' l => MadeFor es' userId l)
      (within (LinksService.createUnmetered url userId explicit)) es := by
  rw [LinksService.createUnmetered, within_bind]
  refine Along.next (within_only ?_) fun es₁ expiresAt grown _ => ?_
  · cases explicit with
    | some expiry => trivial
    | none => exact .bind (.perform fun _ _ => trivial) fun _ => trivial
  replace acts := acts.mono grown
  replace received := received.mono grown
  generalize MAX_SLUG_RETRIES = n
  induction n generalizing es₁ with
  | zero => exact .throw
  | succ n ih =>
    rw [retryOnSlugConflict, within_bind]
    refine Along.next (Q := fun es' made => ∀ l, made = some l → MadeFor es' userId l) ?_
      fun es₂ made grown mine => ?_
    · rw [tryOnce, within_tryCatch, within_bind]
      refine .handled (Along.next (Q := fun es' l => MadeFor es' userId l) ?_ ?_) ?_
      · rw [LinksService.tryCreate, within_bind]
        refine Along.next (awaits trivial) fun es₂ shortUrl grown _ => ?_
        replace acts := acts.mono grown
        replace received := received.mono grown
        refine (awaits ⟨acts, r, received, creates⟩).grows.mono fun es₃ r post l same => ?_
        obtain ⟨inserted, answers⟩ := post.2 l same
        obtain ⟨owner, destination⟩ := answers_insertLinkWithOutbox answers
        have acts : ActsFor es₃ l.userId := by
          rw [owner]
          exact acts.mono post.1
        refine ⟨owner, .made acts inserted, .created acts (received.mono post.1) ?_ inserted⟩
        rw [destination]
        exact creates
      · rintro es₂ l - mine
        refine .pure fun l' same => ?_
        cases same
        exact mine
      · intro es₂ e _
        split
        · exact .pure fun l same => by cases same
        · exact .throw
    · cases made with
      | some l => exact .pure (mine l rfl)
      | none =>
        exact ih es₂ (fun _ member => grown (‹es ⊆ es₁› member)) (acts.mono grown)
          (received.mono grown)

theorem create_mediated (identified : Identified es userId) (received : Receives es r)
    (creates : r.Creates url) :
    Along Authorised (OnSuccess fun es' l => MadeFor es' userId l)
      (within (LinksService.create D.platform url userId explicit)) es := by
  rw [LinksService.create, within_bind]
  refine Along.next (within_only ?_) fun es₁ count grown₁ _ => ?_
  · refine .bind (.perform fun _ _ => trivial) fun now => .perform ?_
    exact fun es' grown => identified.mono grown
  rw [within_bind]
  refine Along.next (within_only ?_) fun es₂ limit grown₂ _ => ?_
  · refine .bind (only_findOneOrFail fun es' grown => ?_) fun _ => trivial
    exact .identified ((identified.mono grown₁).mono grown)
  split
  · exact .throw
  · exact createUnmetered_mediated (.inl ((identified.mono grown₁).mono grown₂))
      ((received.mono grown₁).mono grown₂) creates

theorem getOwnedLink_mediated (asks : AsksFor es slug) :
    Along Authorised (OnSuccess fun es' l => Did es' (.findLink slug) (some l) ∧ l.userId = userId ∧
      l.slugKey = bpchar slug) (within (LinksService.getOwnedLink slug userId)) es := by
  rw [LinksService.getOwnedLink, within_bind]
  refine Along.next (awaits asks) fun es' found _ did => ?_
  cases found with
  | none => exact .throw
  | some l =>
    simp only
    split
    · exact .throw
    next mine => exact .pure ⟨did.1, not_not.mp mine, answers_findLink did.2⟩

theorem remove_mediated (identified : Identified es userId) (asks : AsksFor es slug) :
    Along Authorised (OnSuccess fun _ _ => True) (within (LinksController.remove userId slug)) es := by
  rw [LinksController.remove, within_bind, LinksService.delete, within_bind]
  refine Along.next (Q := fun _ _ => True) (Along.next (getOwnedLink_mediated asks) ?_)
    fun _ _ _ _ => cacheDel_mediated
  intro es₁ l grown owned
  obtain ⟨found, rfl, -⟩ := owned
  have owns : OwnsLink es₁ slug := ⟨l, found, identified.mono grown⟩
  rw [within_bind]
  exact Along.next (awaits (.inr owns)) fun _ _ _ _ => .pure trivial

theorem updateDestination_mediated (identified : Identified es userId) (asks : AsksFor es slug)
    (received : Receives es (.updateLink userId slug url)) :
    Along Authorised (OnSuccess fun es' l => ShowsLink es' l ∧
      Submits es' l.userId l.slugKey l.originalUrl)
      (within (LinksService.updateDestination slug userId url)) es := by
  rw [LinksService.updateDestination, within_bind]
  refine Along.next (getOwnedLink_mediated asks) fun es₁ l grown owned => ?_
  obtain ⟨found, rfl, key⟩ := owned
  replace identified := identified.mono grown
  replace received := received.mono grown
  rw [within_bind]
  refine Along.next (awaits ⟨identified, received, l, found, rfl⟩) fun es₂ n grown' _ => .pure ?_
  refine ⟨.edited (identified.mono grown') (grown' found) (received.mono grown'), ?_⟩
  change Submits es₂ l.userId l.slugKey url
  rw [key]
  exact .edited (identified.mono grown') (received.mono grown') (grown' found)

theorem update_mediated (identified : Identified es userId) (asks : AsksFor es slug)
    (received : Receives es (.updateLink userId slug url)) :
    Along Authorised (OnSuccess fun es' link => Reveals es' (.api (.link link)))
      (within (LinksController.update userId slug url)) es := by
  rw [LinksController.update, within_bind]
  refine Along.next (updateDestination_mediated identified asks received) fun es₂ l _ edited => ?_
  obtain ⟨shown, submits⟩ := edited
  -- however the cache is refreshed, the row that was read is answered
  have answers : ∀ es', es₂ ⊆ es' → Along Authorised (OnSuccess fun es' link =>
      Reveals es' (.api (.link link))) (within (pure (toPublicLinkSchema l))) es' :=
    fun es' grown => .pure ⟨l, shown.mono grown, rfl⟩
  simp only
  split
  · rw [within_bind]
    exact Along.next (cacheSet_mediated (.inl ⟨_, submits⟩)) fun es' _ grown _ => answers es' grown
  · rw [within_bind]
    refine Along.next (awaits trivial) fun es₃ now grown _ => ?_
    split
    · rw [within_bind]
      exact Along.next cacheDel_mediated fun es' _ grown' _ => answers es' fun _ m => grown' (grown m)
    · rw [within_bind]
      exact Along.next (cacheSet_mediated (.inl ⟨_, submits.mono grown⟩)) fun es' _ grown' _ =>
        answers es' fun _ m => grown' (grown m)

theorem controllerCreate_mediated {user : LinksController.RequestUser}
    (acts : ActsFor es user.id) (counted : user.isGuest = false → Identified es user.id)
    (received : Receives es r) (creates : r.Creates url) :
    Along Authorised (OnSuccess fun es' link => Reveals es' (.api (.link link)))
      (within (LinksController.create D.platform user url explicit)) es := by
  have answers : ∀ es₁ l, es ⊆ es₁ → MadeFor es₁ user.id l →
      Along Authorised (OnSuccess fun es' link => Reveals es' (.api (.link link)))
        (within (do
          LinkCacheService.set l.shortUrl.1 l.originalUrl l.expiresAt
          pure (toPublicLinkSchema l))) es₁ := by
    intro es₁ l grown made
    rw [within_bind]
    exact Along.next (cacheSet_mediated (.inl ⟨_, made.submits⟩)) fun es₂ _ grown' _ =>
      .pure ⟨l, made.shown.mono grown', rfl⟩
  unfold LinksController.create
  split
  · rw [within_bind]
    exact Along.next (createUnmetered_mediated acts received creates) answers
  next registered =>
    rw [Bool.not_eq_true] at registered
    rw [within_bind]
    exact Along.next (create_mediated (counted registered) received creates) answers

theorem resolve_mediated (asks : AsksFor es slug) :
    Along Authorised (OnSuccess fun es' resolution => ∀ url, resolution = .active url →
      Did es' (.redisGet (LinkCacheService.cacheKey slug)) (some url) ∨ ReadsRow es' slug url)
      (within (RedirectService.resolve D.platform slug)) es := by
  rw [RedirectService.resolve, within_bind]
  refine Along.next (Q := fun es' cached => ∀ url, cached = some url →
    Did es' (.redisGet (LinkCacheService.cacheKey slug)) (some url)) ?_ fun es₁ cached grown₁ hit => ?_
  · rw [LinkCacheService.get, safeGet, within_tryCatch]
    refine .handled ((awaits authorised_cacheGet).mono fun es' r post cached same => ?_) ?_
    · rintro url rfl
      exact (post _ same).1
    · exact fun _ _ _ => .pure fun _ same => by cases same
  cases cached with
  | some cached =>
    simp only
    split
    · exact .pure fun _ same => by cases same
    · refine .pure fun url same => ?_
      cases same
      exact .inl (hit _ rfl)
  | none =>
    rw [RedirectService.resolveFromDatabase, within_bind]
    refine Along.next (awaits (asks.mono grown₁)) fun es₂ found _ did => ?_
    cases found with
    | none => exact .pure fun _ same => by cases same
    | some l =>
      rw [within_bind]
      refine Along.next (within_only ?_) fun es₃ expired grown _ => ?_
      · unfold isExpired
        split
        · trivial
        · exact .bind (.perform fun _ _ => trivial) fun _ => trivial
      have reads : ReadsRow es₃ slug l.originalUrl := ⟨l, grown did.1, rfl⟩
      split
      · exact .pure fun _ same => by cases same
      split
      · exact .pure fun _ same => by cases same
      · rw [within_bind]
        refine Along.next (cacheSet_mediated (.inr reads)) fun es₄ _ grown' _ => .pure ?_
        rintro url ⟨⟩
        exact .inr (reads.mono grown')

end Links

/-! ### Keys, usage and statistics -/

section Account

/-- The month's count of a user is read at the clock. -/
theorem countLinksThisMonth_mediated (identified : Identified es userId) :
    Along Authorised (OnSuccess fun es' n => ∃ now, Did es' .dateNow now ∧
      Did es' (.countLinks userId (getMonthBounds now).1 (getMonthBounds now).2) n)
      (within (UsageService.countLinksThisMonth userId)) es := by
  rw [UsageService.countLinksThisMonth, within_bind]
  refine Along.next (awaits trivial) fun es₁ now grown read => ?_
  refine (awaits (identified.mono grown)).grows.mono fun es₂ r post n same => ?_
  exact ⟨now, post.1 read.1, (post.2 n same).1⟩

theorem countKeysThisMonth_mediated (identified : IdentifiedBy es .jwt userId) :
    Along Authorised (OnSuccess fun es' n => ∃ now, Did es' .dateNow now ∧
      Did es' (.countKeys userId (getMonthBounds now).1 (getMonthBounds now).2) n)
      (within (UsageService.countKeysThisMonth userId)) es := by
  rw [UsageService.countKeysThisMonth, within_bind]
  refine Along.next (awaits trivial) fun es₁ now grown read => ?_
  refine (awaits (identified.mono grown)).grows.mono fun es₂ r post n same => ?_
  exact ⟨now, post.1 read.1, (post.2 n same).1⟩

theorem createForUser_mediated {label : String} (identified : IdentifiedBy es .jwt userId) :
    Along Authorised (OnSuccess fun es' created => ShowsNewKey es' created)
      (within (ApiKeysService.createForUser D.platform userId label)) es := by
  rw [ApiKeysService.createForUser, within_bind]
  refine Along.next (countKeysThisMonth_mediated identified) fun es₁ count grown₁ _ => ?_
  replace identified := identified.mono grown₁
  rw [within_bind]
  refine Along.next (within_only ?_) fun es₂ limit grown₂ _ => ?_
  · refine .bind (only_findOneOrFail fun es' grown => ?_) fun _ => trivial
    exact .identified ⟨.jwt, identified.mono grown⟩
  replace identified := identified.mono grown₂
  split
  · exact .throw
  rw [within_bind, ApiKeysService.generateSecret, within_bind]
  refine Along.next (Q := fun es' secret => ∃ random, Did es' .randomSecret random ∧
    secret.1 = KEY_NAMESPACE ++ random) ?_ fun es₃ secret grown₃ drawn => ?_
  · exact Along.next (awaits trivial) fun es' random _ did => .pure ⟨random, did.1, rfl⟩
  obtain ⟨plaintext, keyPrefix⟩ := secret
  obtain ⟨random, drawn, rfl⟩ := drawn
  rw [within_bind]
  refine Along.next (awaits trivial) fun es₄ keyHash grown₄ _ => ?_
  replace identified := (identified.mono grown₃).mono grown₄
  rw [within_bind]
  refine Along.next (awaits identified) fun es₅ row grown₅ saved => .pure ?_
  exact ⟨userId, label, keyHash, keyPrefix, random, row, identified.mono grown₅,
    grown₅ (grown₄ drawn), saved.1, answers_saveApiKey saved.2, rfl⟩

theorem revoke_mediated {id : String} (identified : IdentifiedBy es .jwt userId) :
    Along Authorised (OnSuccess fun _ _ => True) (within (ApiKeysService.revoke userId id)) es :=
  within_only <| only_revoke (fun _ _ => trivial) fun _ _ grown => identified.mono grown

theorem listForUser_mediated (identified : IdentifiedBy es .jwt userId) :
    Along Authorised (OnSuccess fun es' keys => ShowsKeys es' keys)
      (within (ApiKeysService.listForUser userId)) es := by
  rw [ApiKeysService.listForUser, within_bind]
  refine Along.next (awaits identified) fun es' rows grown did => .pure ?_
  exact ⟨userId, rows, identified.mono grown, did.1, answers_listApiKeys did.2, rfl⟩

theorem me_mediated (identified : IdentifiedBy es .jwt userId) :
    Along Authorised (OnSuccess fun es' profile => Reveals es' (.profile profile))
      (within (AuthController.me userId)) es := by
  rw [AuthController.me, within_bind]
  refine Along.next (awaits (.identified ⟨.jwt, identified⟩)) fun es' found grown did => ?_
  cases found with
  | none => exact .throw
  | some user =>
    obtain rfl := answers_findUserById did.2
    exact .pure ⟨identified.mono grown, user, .inl did.1, rfl⟩

/-- The counts and limits that the summary shows are the user's. -/
theorem getSummary_mediated (identified : IdentifiedBy es .jwt userId) :
    Along Authorised (OnSuccess fun es' summary => Reveals es' (.usage summary))
      (within (UsageService.getSummary D.platform userId)) es := by
  rw [UsageService.getSummary, within_bind, UsageService.findOneOrFail, within_bind]
  refine Along.next (Q := fun es' user => Did es' (.findUserById user.id) (some user) ∧
    user.id = userId) (Along.next (awaits (.identified ⟨.jwt, identified⟩)) ?_)
    fun es₁ user grown₁ found => ?_
  · intro es' found _ did
    cases found with
    | none => exact .throw
    | some user =>
      obtain rfl := answers_findUserById did.2
      exact .pure ⟨did.1, rfl⟩
  obtain ⟨found, rfl⟩ := found
  replace identified := identified.mono grown₁
  rw [within_bind]
  refine Along.next (countLinksThisMonth_mediated ⟨.jwt, identified⟩) fun es₂ n grown₂ links => ?_
  replace identified := identified.mono grown₂
  rw [within_bind]
  refine Along.next (countKeysThisMonth_mediated identified) fun es₃ m grown₃ keys => ?_
  replace identified := identified.mono grown₃
  rw [within_bind]
  refine Along.next (awaits trivial) fun es₄ now grown₄ _ => .pure ⟨user, ?_⟩
  obtain ⟨first, read, links⟩ := links
  obtain ⟨second, read', keys⟩ := keys
  exact {
    identified := identified.mono grown₄
    found := grown₄ (grown₃ (grown₂ found))
    linkLimit := rfl
    keyLimit := rfl
    links := ⟨first, grown₄ (grown₃ read), grown₄ (grown₃ links)⟩
    keys := ⟨second, grown₄ read', grown₄ keys⟩
    linksRemaining := rfl
    keysRemaining := rfl }

theorem awaitsClickHouse {c : ClickHouseCmd} (authorised : Authorised es (.inl (.inr c))) :
    Along Authorised (OnSuccess fun es' a => Reported es' c a)
      (Prog.lift (awaitClickHouse c) : HttpProg c.Res) es := by
  rw [awaitClickHouse, Prog.lift_perform]
  refine Along.perform (S := httpApi) authorised ?_
  rintro res - a rfl
  exact List.mem_cons_self

theorem getStats_mediated {slug : String} (identified : Identified es userId)
    (asks : AsksFor es slug) :
    Along Authorised (OnSuccess fun es' response => Reveals es' (.stats response))
      (Prog.lift (StatsController.getStats slug userId) : HttpProg StatsResponse) es := by
  rw [StatsController.getStats, Prog.lift_bind]
  refine Along.next (Q := fun es' _ => OwnsLink es' slug) ?_ fun es₁ _ _ owns => ?_
  · change Along _ _ (within (verifyLinkOwnership slug userId)) es
    rw [verifyLinkOwnership, within_bind]
    refine Along.next (awaits asks) fun es' found grown did => ?_
    cases found with
    | none => exact .throw
    | some l =>
      simp only
      split
      · exact .throw
      next mine =>
        refine .pure ⟨l, did.1, ?_⟩
        rw [not_not.mp mine]
        exact identified.mono grown
  rw [Prog.lift_bind, StatsService.getStats, Prog.lift_bind]
  refine Along.next (Q := fun es' stats => ShowsStats es' (toStatsResponse slug stats)) ?_
    fun es' stats _ shown => .pure shown
  refine Along.next (awaitsClickHouse owns) fun es₂ total grown₂ totalled => ?_
  replace owns := owns.mono grown₂
  rw [Prog.lift_bind]
  refine Along.next (awaitsClickHouse owns) fun es₃ byDay grown₃ onDays => ?_
  replace owns := owns.mono grown₃
  rw [Prog.lift_bind]
  refine Along.next (awaitsClickHouse owns) fun es₄ countries grown₄ inCountries => ?_
  replace owns := owns.mono grown₄
  rw [Prog.lift_bind]
  refine Along.next (awaitsClickHouse owns) fun es₅ browsers grown₅ inBrowsers => .pure ?_
  exact ⟨owns.mono grown₅, total, byDay, countries, browsers, grown₅ (grown₄ (grown₃ totalled)),
    grown₅ (grown₄ onDays), grown₅ inCountries, inBrowsers, rfl⟩

/-- Whatever becomes of the click, the location is the destination that was resolved. -/
theorem redirect_mediated {slug : String} {ip userAgent : Option String}
    (asked : .start (.redirect slug ip userAgent) ∈ es) :
    Along Authorised (OnSuccess fun es' outcome => Reveals es' (.redirect outcome))
      (Prog.lift (RedirectController.redirect D.platform slug ip userAgent) :
        HttpProg RedirectOutcome) es := by
  unfold RedirectController.redirect
  split
  · exact .pure trivial
  rw [Prog.lift_bind]
  refine Along.next (resolve_mediated ⟨_, asked, rfl, .inl rfl⟩) fun es₁ resolution grown resolved => ?_
  rw [Prog.lift_bind]
  refine Along.next (Q := fun _ _ => True) (.permitted (.lift ?_)) fun es₂ _ grown' _ => .pure ?_
  · cases resolution with
    | active url => exact .tryCatch (.perform fun _ _ => trivial) fun _ => trivial
    | expired => trivial
    | notFound => trivial
  · cases resolution with
    | active url =>
      simp only [applyRedirect]
      split
      · trivial
      · exact ⟨slug, ip, userAgent, grown' (grown asked), (resolved url rfl).imp
          (fun hit => grown' hit) (ReadsRow.mono grown')⟩
    | expired => trivial
    | notFound => trivial

/-- Whatever fails on the way, only links that were found to be past their expiry are deleted. -/
theorem cleanup_mediated (asked : .start .cleanup ∈ es) :
    Along Authorised (OnSuccess fun _ _ => True) (within CleanupService.handleCleanup) es := by
  rw [CleanupService.handleCleanup, within_bind]
  refine Along.next (awaits trivial) fun es₁ now grown₁ read => ?_
  rw [within_bind, CleanupService.findExpiredLinks]
  refine Along.next (awaits trivial) fun es₂ expired grown₂ found => ?_
  have finds : ∀ l ∈ expired, FindsExpired es₂ l.shortUrl.1 := fun l member =>
    ⟨grown₂ (grown₁ asked), now, CLEANUP_BATCH_SIZE, expired, grown₂ read.1, found.1, l, member, rfl,
      answers_findExpiredLinks found.2 l member⟩
  clear found
  generalize 0 = count
  refine within_only ?_
  induction expired generalizing count with
  | nil => trivial
  | cons link expired ih =>
    refine .bind ?_ fun _ => ih (fun l member => finds l (List.mem_cons_of_mem _ member)) _
    refine .tryCatch (.bind (.bind (.perform fun es' grown => ?_) fun _ => ?_) fun _ => trivial)
      fun _ => trivial
    · exact .inl ((finds link List.mem_cons_self).mono grown)
    · exact only_cacheDel fun _ _ => authorised_cacheDel

end Account

/-! ### Sessions -/

/-- Tokens and cookies that are all made out to one user. -/
structure IssuedTo (issued : IssuedTokens) (userId : String) : Prop where
  access : issued.tokens.accessToken.payload.sub = userId
  first : issued.cookies.1.value.payload.sub = userId
  second : issued.cookies.2.value.payload.sub = userId

/-- What a handler of a session may have put on its response. -/
structure Earned (es : HttpEvents D) (handled : Handled) : Prop where
  cookies : ∀ cookie, .session cookie ∈ handled.setCookie →
    Authenticated es cookie.value.payload.sub
  profile : ∀ profile, handled.outcome = .ok (.profile profile) →
    Authenticated es profile.id ∧ ProfileOf es profile

section Sessions

theorem oauthStateKey_ne_buildRevocationKey (state family : String) :
    GithubStateStore.stateKey state ≠ buildRevocationKey family := by
  intro same
  have chars := congrArg String.toList same
  simp [GithubStateStore.stateKey, OAUTH_STATE_KEY_PREFIX, buildRevocationKey,
    REVOCATION_KEY_PREFIX] at chars

theorem oauthStateKey_ne_cacheKey (state slug : String) :
    GithubStateStore.stateKey state ≠ LinkCacheService.cacheKey slug := by
  intro same
  have chars := congrArg String.toList same
  simp [GithubStateStore.stateKey, OAUTH_STATE_KEY_PREFIX, LinkCacheService.cacheKey,
    CACHE_PREFIX] at chars

/-- Only a user who has been authenticated has an entry written to the allowlist. -/
theorem authorised_allowlistSet {family value : String} {ex : Option Nat}
    (authenticated : Authenticated es userId) :
    Authorised es (.inl (.inl (.redisSet (buildRevocationKey family) value ex))) :=
  ⟨fun _ _ => ⟨userId, authenticated⟩,
    fun slug same => absurd same.symm (cacheKey_ne_buildRevocationKey slug family)⟩

theorem setWithOptionalTtl_mediated {key value : String} {ttl : Option Nat}
    (authorised : ∀ ex, Authorised es (.inl (.inl (.redisSet key value ex)))) :
    Along Authorised (OnSuccess fun _ _ => True) (within (setWithOptionalTtl key value ttl)) es := by
  have sets : ∀ ex, Along Authorised (OnSuccess fun _ _ => True)
      (within (await (.redisSet key value ex))) es :=
    fun ex => (awaits (authorised ex)).mono fun _ _ _ _ _ => trivial
  unfold setWithOptionalTtl
  split
  · split <;> exact sets _
  · exact sets _

theorem issueTokens_mediated {user : User} (authenticated : Authenticated es user.id) :
    Along Authorised (OnSuccess fun es' issued => IssuedTo issued user.id ∧ Authenticated es' user.id)
      (within (AuthService.issueTokens D.platform user)) es := by
  rw [AuthService.issueTokens, within_bind]
  refine Along.next (awaits trivial) fun es₁ jti grown₁ _ => ?_
  replace authenticated := authenticated.mono grown₁
  rw [within_bind]
  refine Along.next (awaits trivial) fun es₂ family grown₂ _ => ?_
  replace authenticated := authenticated.mono grown₂
  rw [within_bind]
  refine Along.next (awaits authenticated) fun es₃ accessToken grown₃ access => ?_
  replace authenticated := authenticated.mono grown₃
  rw [within_bind]
  refine Along.next (awaits authenticated) fun es₄ refreshToken grown₄ refresh => ?_
  replace authenticated := authenticated.mono grown₄
  rw [within_bind]
  refine Along.next (setWithOptionalTtl_mediated fun ex => authorised_allowlistSet authenticated)
    fun es₅ _ grown₅ _ => .pure ⟨?_, authenticated.mono grown₅⟩
  have first := answers_sign access.2
  have second := answers_sign refresh.2
  exact ⟨by rw [first]; rfl, by simp only [first]; rfl, by simp only [second]; rfl⟩

/-- A handler that has set the cookies and then only looks up the profile. -/
theorem withCookies_mediated {issued : IssuedTokens} {rest : Prog Returned}
    (issuedTo : IssuedTo issued userId) (authenticated : Authenticated es userId)
    (profile : Along Authorised (OnSuccess fun es' reply => ∀ profile, reply = .profile profile →
      profile.id = userId ∧ ProfileOf es' profile) (within rest) es) :
    Along Authorised (OnSuccess Earned) (within (withCookies (applySessionCookies issued) rest)) es := by
  have cookies : ∀ es', es ⊆ es' → ∀ cookie, .session cookie ∈ applySessionCookies issued →
      Authenticated es' cookie.value.payload.sub := by
    intro es' grown cookie member
    simp only [applySessionCookies, List.mem_cons, CookieHeader.session.injEq, List.not_mem_nil,
      or_false] at member
    rcases member with rfl | rfl
    · rw [issuedTo.first]
      exact authenticated.mono grown
    · rw [issuedTo.second]
      exact authenticated.mono grown
  rw [withCookies, within_tryCatch, within_bind]
  refine .handled (Along.next profile fun es' reply grown shown => .pure ⟨cookies es' grown, ?_⟩)
    fun es' e grown => .pure ⟨cookies es' grown, fun _ same => by cases same⟩
  intro profile same
  obtain ⟨rfl, read⟩ := shown profile (Except.ok.inj same)
  exact ⟨authenticated.mono grown, read⟩

theorem validateCredentials_mediated {email password : String} (lookUp : MayLookUp es email) :
    Along Authorised (OnSuccess fun es' found => ∀ user, found = some user →
      Did es' (.findUserByEmail email) (some user) ∧ ∃ hash, user.passwordHash = some hash ∧
        hash ≠ "" ∧ D.platform.bcryptCompare password hash = true)
      (within (AuthService.validateCredentials D.platform email password)) es := by
  rw [AuthService.validateCredentials, within_bind]
  refine Along.next (awaits lookUp) fun es' found _ did => .pure fun user same => ?_
  split at same
  · cases same
  next matched =>
    subst same
    simp only [Option.bind_some] at matched
    push Not at matched
    obtain ⟨hash, hashed⟩ := Option.ne_none_iff_exists'.mp matched.1
    refine ⟨did.1, hash, hashed, ?_, ?_⟩
    · rintro rfl
      exact matched.2.1 hashed
    · simpa [hashed] using matched.2.2

theorem login_mediated {body : Json} {dto : Instance} (asked : .start (.session (.login body)) ∈ es)
    (valid : ValidationPipe.transform (LoginDto D.texts) body = .ok dto) :
    Along Authorised (OnSuccess Earned)
      (within (SessionRoutes.login D.platform (dto.text "email") (dto.text "password"))) es := by
  rw [SessionRoutes.login, within_bind]
  refine Along.next (validateCredentials_mediated (.login asked valid))
    fun es₁ found grown matches' => ?_
  cases found with
  | none => exact .throw
  | some user =>
    obtain ⟨did, hash, hashed, nonempty, matched⟩ := matches' user rfl
    have authenticated : Authenticated es₁ user.id :=
      .inl (.password (grown asked) valid did hashed nonempty matched)
    rw [within_bind]
    refine Along.next (issueTokens_mediated authenticated) fun es₂ issued grown₂ issuedTo => ?_
    refine withCookies_mediated issuedTo.1 issuedTo.2 (.pure fun profile same => ?_)
    cases same
    exact ⟨rfl, user, .inr ⟨_, grown₂ did⟩, rfl⟩

theorem rotateRefresh_mediated {token : Token}
    (asked : .start (.session (.refresh (some token))) ∈ es) :
    Along Authorised (OnSuccess fun es' issued => ∃ userId, IssuedTo issued userId ∧
      Authenticated es' userId) (within (AuthService.rotateRefresh D.platform token)) es := by
  rw [AuthService.rotateRefresh, within_bind, decodeRefreshToken, within_tryCatch]
  refine Along.next (.handled (awaits trivial) fun _ _ _ => .throw) fun es₁ payload grown₁ verified => ?_
  replace asked := grown₁ asked
  rw [within_bind]
  refine Along.next (Q := fun _ _ => payload.type = some REFRESH_TOKEN_TYPE) ?_
    fun es₂ _ grown₂ type => ?_
  · unfold assertRefreshType
    split
    · exact .throw
    next refresh => exact .pure (not_not.mp refresh)
  rw [within_bind]
  refine Along.next (Q := fun _ claims => refreshClaims payload = some claims) ?_
    fun es₃ claims grown₃ claimed => ?_
  · unfold assertRefreshClaims
    split
    next claims claimed => exact .pure claimed
    · exact .throw
  obtain ⟨jti, family⟩ := claims
  simp only
  replace asked := grown₃ (grown₂ asked)
  have verified := grown₃ (grown₂ verified.1)
  -- the entry of the family is read, and may be deleted
  have handed : ∀ es', es₃ ⊆ es' → ∀ family', buildRevocationKey family = buildRevocationKey family' →
      HandedFamily es' family' := by
    intro es' grown family' same
    cases buildRevocationKey_inj same
    exact ⟨token, payload, .inl (grown asked), grown verified, (refreshClaims_eq_some.mp claimed).2.1⟩
  rw [within_bind]
  refine Along.next (awaits (handed es₃ fun _ member => member)) fun es₄ stored grown₄ listed => ?_
  cases stored with
  | none => exact .throw
  | some storedJti =>
    simp only
    split
    -- the family stands for another token
    · rw [within_bind]
      exact Along.next (awaits (handed es₄ grown₄)) fun _ _ _ _ => .throw
    next current =>
      cases not_not.mp current
      have presented : PresentsRefresh es₄ payload.sub :=
        .intro (grown₄ asked) (grown₄ verified) type claimed listed.1
      rw [within_bind]
      refine Along.next (awaits (.refresh presented)) fun es₅ found grown₅ did => ?_
      cases found with
      | none => exact .throw
      | some user =>
        have renews : Renews es₅ payload.sub := ⟨presented.mono grown₅, user, did.1⟩
        rw [← answers_findUserById did.2] at renews
        exact (issueTokens_mediated (.inr renews)).mono fun _ _ post issued same =>
          ⟨user.id, post issued same⟩

theorem refresh_mediated {token : Option Token} (asked : .start (.session (.refresh token)) ∈ es) :
    Along Authorised (OnSuccess Earned) (within (SessionRoutes.refresh D.platform token)) es := by
  cases token with
  | none => exact .throw
  | some token =>
    rw [SessionRoutes.refresh, within_bind]
    refine Along.next (rotateRefresh_mediated asked) fun es₁ issued _ post => ?_
    obtain ⟨userId, issuedTo, authenticated⟩ := post
    refine withCookies_mediated issuedTo authenticated ?_
    rw [within_bind, issuedTo.access]
    refine Along.next (awaits (.authenticated authenticated)) fun es₂ found _ did => ?_
    cases found with
    | none => exact .throw
    | some user =>
      refine .pure fun profile same => ?_
      cases same
      obtain rfl := answers_findUserById did.2
      exact ⟨rfl, user, .inl did.1, rfl⟩

theorem revokeRefresh_mediated {token : Token}
    (asked : .start (.session (.logout (some token))) ∈ es) :
    Along Authorised (OnSuccess fun _ _ => True)
      (within (AuthService.revokeRefresh D.platform token)) es := by
  rw [AuthService.revokeRefresh, within_bind, within_tryCatch, within_bind]
  refine Along.next (Q := fun es' verified => ∀ payload, verified = some payload →
    Did es' (.verify D.platform.jwtRefreshSecret token) payload)
    (.handled (Along.next (awaits trivial) fun es₁ payload _ did => .pure ?_) fun _ _ _ => .pure ?_)
    fun es₂ verified grown did => ?_
  · rintro _ ⟨⟩
    exact did.1
  · rintro _ ⟨⟩
  cases verified with
  | none => exact .pure trivial
  | some payload =>
    simp only
    unfold AuthService.revokeFamily
    split
    · exact .pure trivial
    next family listed =>
      split
      · exact .pure trivial
      · refine (awaits fun family' same => ?_).mono fun _ _ _ _ _ => trivial
        cases buildRevocationKey_inj same
        exact ⟨token, payload, .inr (grown asked), did payload rfl, listed⟩

theorem logout_mediated {token : Option Token} (asked : .start (.session (.logout token)) ∈ es) :
    Along Authorised (OnSuccess Earned) (within (SessionRoutes.logout D.platform token)) es := by
  -- the cookies that are sent hold no token
  have cleared : ∀ es' : HttpEvents D, Along Authorised (OnSuccess Earned)
      (within (withCookies applyClearCookies (pure .noContent))) es' := by
    refine fun es' => .pure ⟨fun cookie member => ?_, fun user same => by cases same⟩
    simp [applyClearCookies] at member
  cases token with
  | none => exact cleared es
  | some token =>
    rw [SessionRoutes.logout, within_bind, within_tryCatch]
    exact Along.next (.handled (revokeRefresh_mediated asked) fun _ _ _ => .throw)
      fun es' _ _ _ => cleared es'

/-! ### Sign-in through GitHub -/

theorem transaction_mediated {α : Type} {Q : HttpEvents D → α → Prop} {body : Prog α}
    (inner : Along Authorised (OnSuccess Q) (within body) es)
    (kept : ∀ es' es'' a, es' ⊆ es'' → Q es' a → Q es'' a) :
    Along Authorised (OnSuccess fun es' a => Q es' a ∧ Did es' .commit ())
      (within (transaction body)) es := by
  rw [transaction, within_tryCatch, within_bind]
  refine .handled (Along.next inner fun es₁ a _ post => ?_) fun es₁ e _ => ?_
  · rw [within_bind]
    exact Along.next (awaits trivial) fun es₂ _ grown did => .pure ⟨kept es₁ es₂ a grown post, did.1⟩
  · rw [within_bind]
    exact Along.next (awaits trivial) fun _ _ _ _ => .throw

/-- What the resolution of an identity has seen when it ends with a user. -/
def SignsInAs (es : HttpEvents D) (identity : GithubIdentity) (user : User) : Prop :=
  (∃ account : ProviderAccount,
    Did es (.findProviderAccount identity.providerUserId) (some account) ∧
      Did es (.findUserById account.userId) (some user)) ∨
    ∃ account, Did es (.findUserByEmail identity.email) (some user) ∧
      Did es (.saveProviderAccount identity.providerUserId user.id) account

theorem resolveProviderIdentity_mediated {identity : GithubIdentity}
    (returned : FromGithub es identity) :
    Along Authorised (OnSuccess fun es' user => SignsInAs es' identity user)
      (within (resolveProviderIdentity identity)) es := by
  -- the identity may be linked to whoever has its email
  have links : ∀ {es₁ : HttpEvents D} (user : User), FromGithub es₁ identity →
      Did es₁ (.findUserByEmail identity.email) (some user) →
      Along Authorised (OnSuccess fun es' user => SignsInAs es' identity user)
        (within (do
          let _ ← await (.saveProviderAccount identity.providerUserId user.id)
          pure user)) es₁ := by
    intro es₁ user returned found
    rw [within_bind]
    refine Along.next (awaits ⟨identity, returned, rfl⟩) fun es₂ account grown did => .pure ?_
    exact .inr ⟨account, grown found, did.1⟩
  rw [resolveProviderIdentity, within_bind]
  refine Along.next (awaits ⟨identity, returned, rfl⟩) fun es₁ existing grown₁ known => ?_
  replace returned := returned.mono grown₁
  cases existing with
  | some existing =>
    rw [within_bind]
    refine Along.next (awaits (.github returned known.1)) fun es₂ found grown₂ did => ?_
    cases found with
    | none => exact .throw
    | some user => exact .pure (.inl ⟨existing, grown₂ known.1, did.1⟩)
  | none =>
    rw [within_bind]
    refine Along.next (awaits (.github returned)) fun es₂ found grown₂ did => ?_
    replace returned := returned.mono grown₂
    cases found with
    | some user => exact links user returned did.1
    | none =>
      rw [within_bind]
      refine Along.next (awaits (.inr ⟨identity, returned, rfl, rfl⟩)) fun es₃ _ grown₃ _ => ?_
      rw [within_bind]
      refine Along.next (awaits (.github (returned.mono grown₃))) fun es₄ inserted grown₄ did => ?_
      cases inserted with
      | none => exact .throw
      | some user => exact links user ((returned.mono grown₃).mono grown₄) did.1

theorem findOrCreateFromProvider_mediated {identity : GithubIdentity}
    (returned : FromGithub es identity) :
    Along Authorised (OnSuccess fun es' user => SignsIn es' user.id)
      (within (UsersService.findOrCreateFromProvider identity)) es := by
  have resolves : ∀ es₁ : HttpEvents D, FromGithub es₁ identity →
      Along Authorised (OnSuccess fun es' user => SignsIn es' user.id)
        (within (transaction (resolveProviderIdentity identity))) es₁ := by
    intro es₁ returned
    refine (transaction_mediated (resolveProviderIdentity_mediated returned) ?_).grows.mono ?_
    · rintro es' es'' user grown (⟨account, known, owner⟩ | ⟨account, found, saved⟩)
      · exact .inl ⟨account, grown known, grown owner⟩
      · exact .inr ⟨account, grown found, grown saved⟩
    · rintro es' r ⟨grown, post⟩ user same
      obtain ⟨⟨account, known, owner⟩ | ⟨account, found, saved⟩, committed⟩ := post user same
      · exact .known (returned.mono grown) known owner committed
      · exact .linked (returned.mono grown) found saved committed
  rw [UsersService.findOrCreateFromProvider, within_tryCatch]
  refine .handled (resolves es returned) fun es' e grown => ?_
  split
  · exact resolves es' (returned.mono grown)
  · exact .throw

theorem githubAuthorize_mediated :
    Along Authorised (OnSuccess fun _ _ => True) (within AuthController.githubAuthorize) es := by
  rw [AuthController.githubAuthorize, within_tryCatch, GithubStateStore.store, within_bind]
  refine .handled (Along.next (awaits trivial) fun es' token _ _ => ?_) fun _ _ _ => .throw
  rw [within_bind]
  refine Along.next (setWithOptionalTtl_mediated fun ex => ⟨fun family same => ?_, fun slug same => ?_⟩)
    fun _ _ _ _ => .pure trivial
  · exact absurd same (oauthStateKey_ne_buildRevocationKey token family)
  · exact absurd same (oauthStateKey_ne_cacheKey token slug)

theorem githubCallback_mediated {query : CallbackQuery}
    (asked : .start (.session (.githubCallback query)) ∈ es) :
    Along Authorised (OnSuccess Earned)
      (within (SessionRoutes.githubCallback D.platform D.authorizeUrl query)) es := by
  cases query with
  | error => exact .throw
  | code providedState exchange =>
    rw [SessionRoutes.githubCallback, within_bind]
    refine Along.next (Q := fun es' issued => ∃ userId, IssuedTo issued userId ∧
      Authenticated es' userId) ?_ fun es₁ issued _ post => ?_
    · rw [AuthController.githubCallback, within_bind, within_tryCatch, GithubStateStore.verify,
        within_bind]
      refine Along.next (Q := fun es' ok => ok = true → ∃ value,
        Did es' (.redisGetDel (GithubStateStore.stateKey providedState)) (some value))
        (.handled (Along.next (awaits trivial) fun es' value _ did => ?_) fun _ _ _ => .throw)
        fun es₁ ok grown consumed => ?_
      · cases value with
        | none => exact .pure fun holds => by cases holds
        | some value => exact .pure fun _ => ⟨value, did.1⟩
      split
      · exact .throw
      next passed =>
        rw [Bool.not_eq_false] at passed
        obtain ⟨value, consumed⟩ := consumed passed
        split
        · exact .throw
        next identity valid =>
          obtain ⟨profile, rfl, valid⟩ := Option.bind_eq_some_iff.mp valid
          rw [AuthService.loginWithGithub, within_bind]
          refine Along.next (findOrCreateFromProvider_mediated
            ⟨providedState, profile, value, grown asked, consumed, valid⟩)
            fun es₂ user _ signs => ?_
          exact (issueTokens_mediated (.inl signs)).mono fun _ _ post issued same =>
            ⟨user.id, post issued same⟩
    · obtain ⟨userId, issuedTo, authenticated⟩ := post
      exact withCookies_mediated issuedTo authenticated (.pure fun _ same => by cases same)
  | absent =>
    rw [SessionRoutes.githubCallback, within_bind]
    refine Along.next (Q := fun _ _ => True) ?_ fun es' token _ _ => .pure ⟨?_, ?_⟩
    · exact githubAuthorize_mediated
    · exact fun cookie member => by cases member
    · exact fun user same => by cases same

end Sessions

/-! ### Routes -/

section Routes

theorem reveals_send {handled : Handled} (earned : Earned es handled) :
    Reveals es (.session (handled.send D.texts D.isProd)) := by
  unfold Handled.send
  split
  next user shown =>
    refine ⟨earned.cookies, fun user' same => ?_⟩
    cases same
    exact earned.profile user shown
  · exact ⟨earned.cookies, fun user same => by cases same⟩
  · exact ⟨earned.cookies, fun user same => by cases same⟩
  · exact ⟨earned.cookies, fun user same => by cases same⟩

theorem reveals_redirectOrSend {handled : Handled} (earned : Earned es handled) :
    Reveals es (.session (handled.redirectOrSend D.texts D.isProd)) := by
  unfold Handled.redirectOrSend
  split
  · split
    · exact ⟨earned.cookies, fun user same => by cases same⟩
    · exact reveals_send earned
  · exact reveals_send earned

theorem filtered_mediated {handler : Prog Handled} {filter : Handled → HttpResponse}
    (first : Along Authorised (OnSuccess Earned) (within handler) es)
    (sends : ∀ {es' : HttpEvents D} {handled}, Earned es' handled →
      Reveals es' (.session (filter handled))) :
    Along Authorised (OnSuccess fun es' response => Reveals es' (.session response))
      (within (filtered handler filter)) es := by
  rw [filtered, Prog.map_eq, within_bind, within_tryCatch]
  refine Along.next (.handled first fun _ _ _ => .pure ⟨?_, ?_⟩) fun _ _ _ earned =>
    .pure (sends earned)
  · exact fun cookie member => by cases member
  · exact fun user same => by cases same

theorem session_mediated {request : SessionRequest} (asked : .start (.session request) ∈ es) :
    Along Authorised (OnSuccess fun es' response => Reveals es' (.session response))
      (within (request.respond D.texts D.isProd D.platform D.authorizeUrl)) es := by
  cases request with
  | login body =>
    unfold SessionRequest.respond
    simp only
    split
    · exact .pure ⟨fun _ member => absurd member List.not_mem_nil, fun _ same => by cases same⟩
    next dto valid => exact filtered_mediated (login_mediated asked valid) reveals_send
  | refresh token => exact filtered_mediated (refresh_mediated asked) reveals_send
  | logout token => exact filtered_mediated (logout_mediated asked) reveals_send
  | githubCallback query => exact filtered_mediated (githubCallback_mediated asked) reveals_redirectOrSend

theorem authRegister_mediated {body : Json} {dto : Instance} {password : String}
    (asked : .start (.register body) ∈ es)
    (valid : ValidationPipe.transform (RegisterDto D.texts) body = .ok dto) :
    Along Authorised (OnSuccess fun es' profile => ShowsRegistered es' profile)
      (within (AuthService.register (dto.text "email") password)) es := by
  rw [AuthService.register, within_bind]
  refine Along.next (awaits trivial) fun es₁ passwordHash grown₁ _ => ?_
  replace asked := grown₁ asked
  rw [within_bind, UsersService.create, saveOrDecoy, within_tryCatch]
  refine Along.next (Q := fun es' user => ShowsRegistered es' ⟨user.id, user.email, user.createdAt⟩)
    (.handled ?_ fun es₂ e grown₂ => ?_) fun _ _ _ shown => .pure shown
  · refine (transaction_mediated (Q := fun es' user => ShowsRegistered es'
      ⟨user.id, user.email, user.createdAt⟩) ?_ ?_).mono fun _ _ post user same => (post user same).1
    · refine (awaits (.inl ⟨body, dto, asked, valid, rfl⟩)).grows.mono fun es₂ r post user same => ?_
      obtain ⟨inserted, answers⟩ := post.2 user same
      have email := answers_insertUser answers
      refine ⟨body, dto, post.1 asked, valid, email, .inl ⟨some passwordHash, user, ?_, rfl⟩⟩
      rw [email]
      exact inserted
    · exact fun _ _ _ grown shown => shown.mono grown
  · split
    -- the email is taken, and what is answered is made up
    · rw [buildDecoyUser, within_bind]
      refine Along.next (awaits trivial) fun es₃ id grown₃ drawn => ?_
      rw [within_bind]
      refine Along.next (awaits trivial) fun es₄ now grown₄ read => .pure ?_
      exact ⟨body, dto, grown₄ (grown₃ (grown₂ asked)), valid, rfl, .inr ⟨grown₄ drawn.1, read.1⟩⟩
    · exact .throw

theorem register_mediated {body : Json} (asked : .start (.register body) ∈ es) :
    Along Authorised (OnSuccess fun es' response => Reveals es' (.register response))
      (within ((AuthRequest.register body).respond D.texts D.isProd D.platform)) es := by
  have refuses : ∀ (es' : HttpEvents D) exception,
      Reveals es' (.register (problemResponse D.isProd exception)) :=
    fun _ _ _ same => by cases same
  simp only [AuthRequest.respond, AuthRequest.receive]
  cases valid : ValidationPipe.transform (RegisterDto D.texts) body with
  | error exc => exact .pure (refuses _ _)
  | ok dto =>
    change Along _ _ (within ((AuthController.handleRegister _ _).tryCatch _)) es
    rw [within_tryCatch, AuthController.handleRegister, within_bind]
    refine .handled (Along.next (authRegister_mediated asked valid) fun es' profile _ shown => ?_)
      fun _ _ _ => .pure (refuses _ _)
    refine .pure fun profile' same => ?_
    cases same
    exact shown

/-- A service behind a pipe: what it answers is what the route answers. -/
theorem handle_mediated {α : Type} {r : Req} {p : Prog α} {f : α → Ans}
    (served : serve D.platform r = f <$> p)
    (along : Along Authorised (OnSuccess fun es' a => Reveals es' (.api (f a))) (within p) es) :
    Along Authorised (OnSuccess Reveals) (handle D (.ok r)) es := by
  refine Along.next (Q := fun es' a => Reveals es' (.api a)) ?_ fun _ _ _ post => .pure post
  rw [served, Prog.map_eq, within_bind]
  exact Along.next along fun _ _ _ post => .pure post

theorem rejected_mediated {rejection : Rejection} :
    Along Authorised (OnSuccess Reveals) (handle D (.error rejection)) es :=
  .pure trivial

theorem createLink_mediated {process : Nat} {user : LinksController.RequestUser} {body : Json}
    (asked : .start (.createLink process req body) ∈ es)
    (acts : ActsFor es user.id) (counted : user.isGuest = false → Identified es user.id) :
    Along Authorised (OnSuccess Reveals)
      (handle D (receive D.platform D.validators (.postUrls user body))) es := by
  cases valid : ValidationPipe.transform (CreateLinkDto D.platform D.validators) body with
  | error exc =>
    simp only [receive, valid]
    exact rejected_mediated
  | ok dto =>
    have passed : receive D.platform D.validators (.postUrls user body) =
        .ok (.createLink user dto.url dto.expiresAt) := by
      simp only [receive, valid]
      rfl
    rw [passed]
    exact handle_mediated rfl (controllerCreate_mediated acts counted (.createLink asked passed)
      (.inl ⟨user, dto.expiresAt, rfl⟩))

theorem updateLink_mediated {slug : String} {body : Json}
    (asked : .start (.updateLink req slug body) ∈ es) (identified : Identified es userId) :
    Along Authorised (OnSuccess Reveals)
      (handle D (receive D.platform D.validators (.patchUrl userId slug body))) es := by
  cases valid : ValidationPipe.transform (UpdateLinkDto D.platform D.validators) body with
  | error exc =>
    simp only [receive, valid]
    exact rejected_mediated
  | ok dto =>
    have passed : receive D.platform D.validators (.patchUrl userId slug body) =
        .ok (.updateLink userId slug dto.url) := by
      simp only [receive, valid]
      rfl
    rw [passed]
    exact handle_mediated rfl (update_mediated identified
      ⟨_, asked, rfl, .inr ⟨userId, identified⟩⟩ (.updateLink asked passed))

theorem createKey_mediated {body : Json} (identified : IdentifiedBy es .jwt userId) :
    Along Authorised (OnSuccess Reveals) (handle D (receiveLabel D.texts userId body)) es := by
  unfold receiveLabel
  cases ValidationPipe.transform (CreateApiKeyDto D.texts) body with
  | error exc => exact rejected_mediated
  | ok dto => exact handle_mediated rfl (createForUser_mediated identified)

theorem createShortLink_mediated {arguments : Json}
    (asked : .start (.createShortLink req arguments) ∈ es) (identified : Identified es userId) :
    Along Authorised (OnSuccess Reveals)
      (handle D (receive D.platform D.validators (.createShortLink userId arguments))) es := by
  cases passed : receive D.platform D.validators (.createShortLink userId arguments) with
  | error rejection => exact rejected_mediated
  | ok r =>
    have received := Receives.createShortLink asked passed
    simp only [receive] at passed
    split at passed
    · cases passed
    next args _ =>
      cases valid : validateInput D.platform D.validators args with
      | error exc =>
        rw [valid] at passed
        cases passed
      | ok dto =>
        rw [valid] at passed
        cases passed
        refine Along.next (Q := fun es' a => Reveals es' (.api a)) ?_ fun _ _ _ post => .pure post
        unfold serve
        rw [within_bind]
        refine Along.next (create_mediated identified received (.inr ⟨userId, dto.expiresAt, rfl⟩))
          fun es' l grown made => .pure ⟨l, made.shown, rfl⟩

theorem guestOrAuthenticatedGuard_mediated {process : Nat} {body : Json}
    (asked : .start (.createLink process req body) ∈ es) :
    Along Authorised (OnSuccess fun es' user =>
      ActsFor es' user.id ∧ (user.isGuest = false → Identified es' user.id))
      (GuestOrAuthenticatedGuard.run D process req) es := by
  unfold GuestOrAuthenticatedGuard.run
  split
  · refine Along.next (bearerOrApiKeyGuard_mediated ⟨_, asked, rfl⟩) fun es' userId _ identified => ?_
    exact .pure ⟨.inl identified, fun _ => identified⟩
  next bare =>
    split
    · exact .throw
    next enabled =>
      split
      · exact .throw
      next browser =>
        rw [Bool.not_eq_true] at bare
        rw [Bool.not_eq_false] at enabled browser
        refine Along.next (rememberedGuestUserId_mediated
          ⟨⟨process, req, body, asked, bare, browser⟩, enabled⟩) fun es' userId _ guest => ?_
        exact .pure ⟨.inr guest, fun registered => by cases registered⟩

theorem respond_mediated (r : HttpReq) :
    Along (V := mikrouliHttp D) Authorised (OnSuccess Reveals) (r.respond D) [.start r] := by
  have started : .start r ∈ ([.start r] : HttpEvents D) := List.mem_singleton_self _
  cases r with
  | register body => exact Along.next (register_mediated started) fun _ _ _ post => .pure post
  | session request => exact Along.next (session_mediated started) fun _ _ _ post => .pure post
  | githubAuthorize => exact Along.next githubAuthorize_mediated fun _ _ _ _ => .pure trivial
  | me req =>
    refine Along.next (jwtAuthGuard_mediated ⟨_, started, rfl⟩) fun es userId _ identified => ?_
    exact Along.next (me_mediated identified) fun _ _ _ post => .pure post
  | createLink process req body =>
    refine Along.next (guestOrAuthenticatedGuard_mediated started) fun es user grown acts => ?_
    exact createLink_mediated (grown started) acts.1 acts.2
  | listLinks req =>
    refine Along.next (bearerOrApiKeyGuard_mediated ⟨_, started, rfl⟩) fun es userId _ identified => ?_
    refine Along.next (Q := fun es' rows => Identified es' userId ∧
      .call (.inr (.listLinks userId)) (.ok rows) ∈ es' ∧ ∀ l ∈ rows, l.userId = userId)
      (Along.perform (S := httpApi) identified ?_) fun _ rows _ post =>
        .pure ⟨userId, rows, post.1, post.2.1, post.2.2, rfl⟩
    rintro res ⟨i, ch, w, w', returned⟩ rows rfl
    exact ⟨identified.mono fun _ old => List.mem_cons_of_mem _ old, List.mem_cons_self,
      linksOf_userId returned⟩
  | removeLink req slug =>
    refine Along.next (bearerOrApiKeyGuard_mediated ⟨_, started, rfl⟩) fun es userId grown identified => ?_
    exact handle_mediated (f := fun _ => .noContent) rfl ((remove_mediated identified
      ⟨_, grown started, rfl, .inr ⟨userId, identified⟩⟩).mono fun _ _ _ _ _ => trivial)
  | updateLink req slug body =>
    refine Along.next (bearerOrApiKeyGuard_mediated ⟨_, started, rfl⟩) fun es userId grown identified => ?_
    exact updateLink_mediated (grown started) identified
  | stats req slug =>
    refine Along.next (bearerOrApiKeyGuard_mediated ⟨_, started, rfl⟩) fun es userId grown identified => ?_
    exact Along.next (getStats_mediated identified
      ⟨_, grown started, rfl, .inr ⟨userId, identified⟩⟩) fun _ _ _ post => .pure post
  | createKey req body =>
    refine Along.next (jwtAuthGuard_mediated ⟨_, started, rfl⟩) fun es userId _ identified => ?_
    exact createKey_mediated identified
  | listKeys req =>
    refine Along.next (jwtAuthGuard_mediated ⟨_, started, rfl⟩) fun es userId _ identified => ?_
    exact handle_mediated rfl (listForUser_mediated identified)
  | revokeKey req id =>
    refine Along.next (jwtAuthGuard_mediated ⟨_, started, rfl⟩) fun es userId _ identified => ?_
    exact handle_mediated rfl (revoke_mediated identified)
  | usage req =>
    refine Along.next (jwtAuthGuard_mediated ⟨_, started, rfl⟩) fun es userId _ identified => ?_
    exact Along.next (getSummary_mediated identified) fun _ _ _ post => .pure post
  | createShortLink req arguments =>
    refine Along.next (apiKeyAuthGuard_mediated ⟨_, started, rfl⟩) fun es userId grown identified => ?_
    exact createShortLink_mediated (grown started) ⟨.apiKey, identified⟩
  | redirect slug ip userAgent =>
    exact Along.next (redirect_mediated started) fun _ _ _ post => .pure post
  | cleanup => exact handle_mediated rfl (cleanup_mediated started)

end Routes

/-! ### The whole run -/

/-- What every thread keeps to, whatever the others do. -/
abbrev mediation (D : Deployment) : Contract (mikrouliHttp D) :=
  .ofHistory Authorised fun _ => OnSuccess Reveals

section Runs

variable {G : Guard (mikrouliHttp D)} {w : (mikrouliHttp D).World} {c : Config (mikrouliHttp D)}
  {i : Nat}

theorem mediation_holds (reach : Reach G (initial w) c) : (mediation D).Holds G c :=
  (Contract.ofHistory_holds w).reach (Contract.ofHistory_sound respond_mediated) reach

/-- A command on someone's behalf comes from a thread whose own request was allowed it. -/
theorem authorised_of_awaits (reach : Reach G (initial w) c) {cmd : httpApi.Cmd}
    (waits : c.Awaits i cmd) : Authorised (c.shared.own i) cmd :=
  (mediation_holds reach).pre waits

end Runs

/-! ### A concrete run -/

/-- One user with a password. -/
def oneAccount : (mikrouliHttp .plain).World :=
  (({ World.empty 5000 with
    users := ⟨[⟨⟨"u@ab.cd", "u@ab.cd", some (Platform.plain.bcryptHash "pw" "salt"), none, none, 0⟩, none⟩],
      by simp⟩ }, []), fun _ => none)

/-- A browser with the access token of the user. -/
def browser : HttpRequest := ⟨[], some [(ACCESS_COOKIE_NAME, .string "u@ab.cd")]⟩

/-- The user signs in, makes a key and lists the keys; the key is about to be saved. -/
def keyMaking : List (Move (mikrouliHttp .plain)) :=
  [.start (.session (.login (.obj [("email", .str "u@ab.cd"), ("password", .str "pw")]))),
   .run 0 {}, .run 0 { draw := "j" }, .run 0 { draw := "f" }, .run 0 {}, .run 0 {}, .run 0 {},
   .start (.createKey browser (.obj [("label", .str "ci")])), .start (.listKeys browser),
   .run 1 {}, .run 2 {}, .run 1 {}, .run 1 {}, .run 1 {}, .run 2 {},
   .run 1 { draw := "0123456789012345678901234567890123456789014" }, .run 1 { draw := "salt" }]

/-- The user for whom thread `i` is about to save a key. -/
def savesKeyFor (c : Config (mikrouliHttp D)) (i : Nat) : Option String :=
  match c.threads[i]? with
  | some (_, .await (.inl (.inl (.saveApiKey userId _ _ _))) _) => some userId
  | _ => none

theorem awaits_of_savesKeyFor {c : Config (mikrouliHttp D)} {i : Nat}
    (saves : savesKeyFor c i = some userId) : ∃ label keyHash keyPrefix,
      c.Awaits i (.inl (.inl (.saveApiKey userId label keyHash keyPrefix))) := by
  unfold savesKeyFor at saves
  split at saves
  next r userId' label keyHash keyPrefix k thread =>
    cases saves
    exact ⟨label, keyHash, keyPrefix, r, k, thread⟩
  · cases saves

/-- The key is saved, and the user lists the keys once more. -/
def keyListing : List (Move (mikrouliHttp .plain)) :=
  keyMaking ++ [.run 1 { draw := "k" }, .start (.listKeys browser), .run 3 {}, .run 3 {}]

/-- Thread `i` has answered with some keys. -/
def listsKeys (c : Config (mikrouliHttp D)) (i : Nat) : Bool :=
  match c.threads[i]? with
  | some (_, .done (.api (.keys (_ :: _)))) => true
  | _ => false

theorem answered_of_listsKeys {c : Config (mikrouliHttp D)} {i : Nat} (lists : listsKeys c i = true) :
    ∃ r key keys, c.Answered i r (.api (.keys (key :: keys))) := by
  unfold listsKeys at lists
  split at lists
  next r key keys thread => exact ⟨r, key, keys, thread⟩
  · cases lists

theorem authorised_of_awaits_keyMaking : ∃ c label keyHash keyPrefix,
    Reach anyStep (initial oneAccount) c ∧
      Authorised (c.shared.own 1)
        (.inl (.inl (.saveApiKey "u@ab.cd" label keyHash keyPrefix))) := by
  obtain ⟨c, reach, passed⟩ := exists_reach_of_play anyStep_of_anyReady (initial oneAccount) keyMaking
    (fun c => decide (savesKeyFor c 1 = some "u@ab.cd")) (by decide +kernel)
  obtain ⟨label, keyHash, keyPrefix, waits⟩ := awaits_of_savesKeyFor (of_decide_eq_true passed)
  exact ⟨c, label, keyHash, keyPrefix, reach, authorised_of_awaits reach waits⟩

end Mikrouli
