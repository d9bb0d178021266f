import Mikrouli.Model.Validation
import Mikrouli.Properties.LinkSteps

/-! Destinations are validated wherever they come from.

A body that passes either pipeline has a URL that follows the rules. From there on a destination
is only handed on: from a request to a row, from a row to the answer of a statement, and from an
answer to the link cache. Whatever holds of every destination asked for therefore holds of every
row and of every value in the cache. -/

namespace Mikrouli

open Async Store

/-! ### Validation -/

section Validation

variable {P : Platform} {V : Validators} {dto : Dto} {object : Instance} {forbid : Bool}

/-- A property has no error if it may be absent and is, or if all its checks hold. -/
theorem Property.error?_eq_none {p : Property} : p.error? object = none ↔
    (p.isOptional = true ∧ isPresent (object.lookup p.name) = false) ∨
      ∀ c ∈ p.constraints, c.holds (object.lookup p.name) = true := by
  simp only [Property.error?]
  split
  next absent =>
    rw [Bool.and_eq_true, Bool.not_eq_true'] at absent
    simp [absent]
  next present =>
    rw [Bool.and_eq_true, Bool.not_eq_true'] at present
    have checked : (p.constraints.filter fun c => !c.holds (object.lookup p.name)).isEmpty = true ↔
        ∀ c ∈ p.constraints, c.holds (object.lookup p.name) = true := by simp
    simp only [present, false_or, ← checked]
    split <;> simp [*]

/-- An error names a property of the DTO and checks of it that failed. -/
theorem Property.error?_eq_some {p : Property} {e : ClassValidatorError}
    (failed : p.error? object = some e) : e.property = p.name ∧ ∃ cs : List Constraint, cs ≠ [] ∧
      (∀ c ∈ cs, c ∈ p.constraints ∧ c.holds (object.lookup p.name) = false) ∧
      e.constraints = some (cs.map fun c => (c.name, c.message)) := by
  simp only [Property.error?] at failed
  split at failed
  · cases failed
  split at failed
  · cases failed
  next some =>
    cases failed
    refine ⟨rfl, _, fun none => some (List.isEmpty_iff.mpr none), fun c member => ?_, rfl⟩
    simpa using List.mem_filter.mp member

theorem validate_eq_nil : validate forbid dto object = [] ↔
    (forbid = true → whitelistErrors dto object = []) ∧ ∀ p ∈ dto, p.error? object = none := by
  simp [validate, List.filterMap_eq_nil_iff]

/-- Every error names the field it checks: a property of the DTO, or a key it does not have. -/
theorem of_mem_validate {e : ClassValidatorError} (member : e ∈ validate forbid dto object) :
    (∃ p ∈ dto, e.property = p.name) ∨
      (forbid = true ∧ (∀ p ∈ dto, p.name ≠ e.property) ∧ ∃ v, (e.property, v) ∈ object) := by
  rcases List.mem_append.mp member with foreign | failed
  · split at foreign
    next forbids =>
      obtain ⟨⟨key, v⟩, unknown, rfl⟩ := List.mem_map.mp foreign
      obtain ⟨own, absent⟩ := List.mem_filter.mp unknown
      refine .inr ⟨forbids, fun p known same => ?_, v, own⟩
      have present : (dto.any fun p => decide (p.name = key)) = true :=
        List.any_eq_true.mpr ⟨p, known, decide_eq_true same⟩
      simp [present] at absent
    · cases foreign
  · obtain ⟨p, known, error⟩ := List.mem_filterMap.mp failed
    exact .inl ⟨p, known, (Property.error?_eq_some error).1⟩

/-- The url rules of `CreateLinkDto`. -/
structure UrlRules (P : Platform) (V : Validators) (url : String) : Prop where
  scheme : hasHttpScheme P url = true
  host : hostIsBlockedLiteralIp V (V.urlHostname url) = false
  format : V.isURL ⟨["http", "https"], true, MAX_URL_LENGTH⟩ url = true
  size : (codeUnits url).length ≤ MAX_URL_LENGTH

/-- The length bound of validator's `isURL`, which counts UTF-16 code units. -/
def BoundsLength (V : Validators) : Prop :=
  ∀ options url, V.isURL options url = true → (codeUnits url).length ≤ options.maxAllowedLength

theorem isPublic_iff {url : String} : isPublic P V url = true ↔
    hasHttpScheme P url = true ∧ hostIsBlockedLiteralIp V (V.urlHostname url) = false := by
  unfold isPublic hasHttpScheme
  cases P.urlProtocol url with
  | none => simp
  | some protocol =>
    by_cases http : protocol = "http:"
    · simp [http]
    by_cases https : protocol = "https:"
    · simp [https]
    · simp [http, https]

/-- The checks of `url`, which both DTOs make, leave only a string that follows the rules. -/
theorem rules_of_validate (bounds : BoundsLength V) (checks : CreateLinkDto.url P V ∈ dto)
    (passed : validate forbid dto object = []) : UrlRules P V (Instance.url object) := by
  have unfailing := (validate_eq_nil.mp passed).2 _ checks
  rcases Property.error?_eq_none.mp unfailing with ⟨optional, -⟩ | holds
  · cases optional
  have reachable := holds (isPublicHttpUrl P V) (by simp [CreateLinkDto.url])
  have format := holds (isUrl V ⟨["http", "https"], true, MAX_URL_LENGTH⟩
    "url must be a valid http(s) URL") (by simp [CreateLinkDto.url])
  simp only [isPublicHttpUrl, isUrl, CreateLinkDto.url] at reachable format
  simp only [Instance.url]
  -- both checks refuse what is not a string
  split at reachable
  next url string =>
    rw [string] at format
    obtain ⟨scheme, host⟩ := isPublic_iff.mp reachable
    exact ⟨scheme, host, format, bounds _ _ format⟩
  · cases reachable

theorem url_mem_CreateLinkDto : CreateLinkDto.url P V ∈ CreateLinkDto P V := List.mem_cons_self

/-- `PickType` keeps the property with all its decorators. -/
theorem url_mem_UpdateLinkDto : CreateLinkDto.url P V ∈ UpdateLinkDto P V :=
  List.mem_filter.mpr ⟨url_mem_CreateLinkDto, rfl⟩

theorem rules_of_transform (bounds : BoundsLength V) (checks : CreateLinkDto.url P V ∈ dto)
    {body : Json} (passed : ValidationPipe.transform dto body = .ok object) :
    UrlRules P V (Instance.url object) := by
  unfold ValidationPipe.transform at passed
  split at passed
  next valid =>
    cases passed
    exact rules_of_validate bounds checks valid
  · cases passed

theorem rules_of_validateInput (bounds : BoundsLength V) {args : List (String × Json)}
    (passed : validateInput P V args = .ok object) : UrlRules P V (Instance.url object) := by
  simp only [validateInput] at passed
  split at passed
  next valid =>
    cases passed
    exact rules_of_validate bounds url_mem_CreateLinkDto valid
  · cases passed

/-- The destination a request asks for. -/
def Req.destination? : Req → Option String
  | .createLink _ url _ | .createShortLink _ url _ | .updateLink _ _ url => some url
  | _ => none

theorem Req.Creates.destination?_eq {r : Req} {url : String} (creates : r.Creates url) :
    r.destination? = some url := by
  rcases creates with ⟨user, expiresAt, rfl⟩ | ⟨userId, expiresAt, rfl⟩
  · rfl
  · rfl

/-- Whatever comes in, a handler is only called with a destination that follows the rules. -/
theorem rules_of_receive (bounds : BoundsLength V) {incoming : Incoming} {r : Req} {url : String}
    (received : receive P V incoming = .ok r) (asks : r.destination? = some url) :
    UrlRules P V url := by
  cases incoming with
  | postUrls user body =>
    cases passed : ValidationPipe.transform (CreateLinkDto P V) body with
    | error e => simp [receive, passed, Except.mapError, bind, Except.bind] at received
    | ok dto =>
      simp only [receive, passed] at received
      cases received
      cases asks
      exact rules_of_transform bounds url_mem_CreateLinkDto passed
  | patchUrl userId slug body =>
    cases passed : ValidationPipe.transform (UpdateLinkDto P V) body with
    | error e => simp [receive, passed, Except.mapError, bind, Except.bind] at received
    | ok dto =>
      simp only [receive, passed] at received
      cases received
      cases asks
      exact rules_of_transform bounds url_mem_UpdateLinkDto passed
  | createShortLink userId arguments =>
    simp only [receive] at received
    split at received
    · cases received
    next args parsed =>
      cases passed : validateInput P V args with
      | error e => simp [passed, Except.mapError, bind, Except.bind] at received
      | ok dto =>
        simp only [passed] at received
        cases received
        cases asks
        exact rules_of_validateInput bounds passed

/-- Two optional strings as the fields of a body. -/
def argumentsOf (url expiresAt : Option String) : List (String × Json) :=
  (url.toList.map fun s => ("url", .str s)) ++ expiresAt.toList.map fun s => ("expiresAt", .str s)

/-- The pipe refuses more keys than the tool, but none of these. -/
theorem whitelistErrors_argumentsOf (url expiresAt : Option String) :
    whitelistErrors (CreateLinkDto P V)
      (plainToInstance (CreateLinkDto P V) (argumentsOf url expiresAt)) = [] := by
  cases url <;> cases expiresAt <;> rfl

/-- The two pipelines let the same strings through and make the same of them. -/
theorem transform_eq_validateInput (url expiresAt : Option String) :
    (ValidationPipe.transform (CreateLinkDto P V) (.obj (argumentsOf url expiresAt))).toOption =
      (validateInput P V (argumentsOf url expiresAt)).toOption := by
  have same : validate true (CreateLinkDto P V)
        (plainToInstance (CreateLinkDto P V) (argumentsOf url expiresAt)) =
      validate false (CreateLinkDto P V)
        (plainToInstance (CreateLinkDto P V) (argumentsOf url expiresAt)) := by
    simp [validate, whitelistErrors_argumentsOf]
  simp only [ValidationPipe.transform, ValidationPipe.entity, validateInput]
  rw [same]
  split <;> rfl

/-- A key outside the DTO: the pipe refuses it, the tool's schema strips it. -/
example : (ValidationPipe.transform (CreateLinkDto Platform.plain Validators.plain)
      (.obj [("url", .str "https://example.com/"), ("tag", .null)])).toOption.isSome = false ∧
    ((parseToolInput (.obj [("url", .str "https://example.com/"), ("tag", .null)])).bind fun args =>
      (validateInput Platform.plain Validators.plain args).toOption).isSome = true := by
  decide +kernel

end Validation

/-! ### Handing on -/

section Destinations

variable {P : Platform} {Good : String → Prop} {σ σ' : Shared (mikrouli P)} {i : Nat} {c : Cmd}
  {ch : Choice} {w : World} {res : Except AppError c.Res}

/-- An event carries a destination: it was asked for, read, or is about to be written. -/
def Carries (url : String) : Event (mikrouli P) → Prop
  | .start r => r.destination? = some url
  | .call (.findLink _) (.ok (some (l : Link))) => l.originalUrl = url
  | .call (.insertLinkWithOutbox _) (.ok (l : Link)) => l.originalUrl = url
  | .call (.updateLink _ _ url') _ => url' = url
  | .call (.redisSet key value _) _ => value = url ∧ ∃ slug, key = LinkCacheService.cacheKey slug
  | .call (.redisGet key) (.ok (some (value : String))) =>
    value = url ∧ ∃ slug, key = LinkCacheService.cacheKey slug
  | _ => False

/-- Every destination that is stored, cached or carried is good. -/
structure AllGood (Good : String → Prop) (σ : Shared (mikrouli P)) : Prop where
  rows : ∀ l ∈ σ.world.links.rows, Good l.originalUrl
  entries : ∀ slug e, σ.world.redis (LinkCacheService.cacheKey slug) = some e → Good e.value
  events : ∀ j, ∀ e ∈ σ.own j, ∀ url, Carries url e → Good url

theorem AllGood.mono {Good' : String → Prop} (weaker : ∀ url, Good url → Good' url)
    (good : AllGood Good σ) : AllGood Good' σ := by
  constructor
  case rows => exact fun l member => weaker _ (good.rows l member)
  case entries => exact fun slug e entry => weaker _ (good.entries slug e entry)
  case events => exact fun j e member url carries => weaker _ (good.events j e member url carries)

/-- A creation was asked for with the destination it inserts. -/
theorem AllGood.asked (good : AllGood Good σ) {userId url : String}
    (asked : (σ.own i).any (asksLink userId url) = true) : Good url := by
  obtain ⟨r, started, creates⟩ := creates_of_asksLink asked
  exact good.events i _ started url creates.destination?_eq

/-- The row a thread is about to cache has a destination that one of its events carries. -/
theorem AllGood.holds (good : AllGood Good σ) {slug : String} {l : Link}
    (holds : Holds (σ.own i) slug l) : Good l.originalUrl := by
  cases holds with
  | created inserted => exact good.events i _ inserted _ rfl
  | edited _ updated => exact good.events i _ updated _ rfl
  | read _ found => exact good.events i _ found _ rfl

/-- What a command writes under the key of a slug is good. -/
theorem AllGood.cached (good : AllGood Good σ) {slug value : String} {ex : Option Nat}
    (step : LinkStep (σ.own i) (.redisSet (LinkCacheService.cacheKey slug) value ex)) :
    Good value := by
  rcases step with ⟨family, key⟩ | ⟨slug', l, holds, -, rfl, -⟩
  · exact absurd key (cacheKey_ne_buildRevocationKey slug family)
  · exact good.holds holds

/-- What a command carries it was asked to write, or has just read. -/
theorem AllGood.carried (good : AllGood Good σ) (step : LinkStep (σ.own i) c)
    (returned : exec P i c ch σ.world = some (res, w)) {url : String}
    (carries : Carries (P := P) url (.call c res)) : Good url := by
  cases c with
  | findLink slug =>
    rcases exec_findLink returned with ⟨-, rfl | rfl⟩
    · cases carries
    · cases found : σ.world.link? slug with
      | none => rw [found] at carries; cases carries
      | some l =>
        rw [found] at carries
        cases carries
        exact good.rows l (World.link?_eq_some.mp found).1
  | insertLinkWithOutbox fields =>
    rcases exec_insertLinkWithOutbox returned with ⟨-, e, rfl⟩ | ⟨l, links, rfl, -, row, -⟩
    · cases carries
    · cases carries
      rw [row]
      exact good.asked step.1
  | updateLink slug userId url' =>
    cases carries
    exact good.events i _ step.1 _ rfl
  | redisSet key value ex =>
    obtain ⟨rfl, slug, rfl⟩ := carries
    exact good.cached step
  | redisGet key =>
    rcases exec_redisGet returned with ⟨-, ⟨-, rfl⟩ | ⟨-, rfl⟩⟩
    · cases carries
    · cases read : σ.world.redis.get σ.world.now key with
      | none => rw [read] at carries; cases carries
      | some value =>
        rw [read] at carries
        obtain ⟨rfl, slug, rfl⟩ := carries
        obtain ⟨e, entry, -, rfl⟩ := Expiring.get_eq_some.mp read
        exact good.entries slug e entry
  | _ => cases carries

theorem AllGood.called (good : AllGood Good σ) (step : LinkStep (σ.own i) c)
    (returned : exec P i c ch σ.world = some (res, w)) : AllGood Good (σ.called i c res w) := by
  constructor
  case rows =>
    intro l after
    rcases row_origin returned after with
      ⟨l₀, old, -, -, -, kept | ⟨slug, userId, rfl⟩⟩ | ⟨fields, rfl, rfl⟩
    · rw [← kept]
      exact good.rows l₀ old
    · exact good.events i _ step.1 _ rfl
    · exact good.asked step.1
  case entries =>
    intro slug e after
    rcases entry_origin returned after with old | ⟨value, ex, rfl, -, rfl⟩
    · exact good.entries slug e old
    · exact good.cached step
  case events =>
    intro j e member url carries
    rcases Shared.mem_own_called.mp member with ⟨-, rfl⟩ | old
    · exact good.carried step returned carries
    · exact good.events j e old url carries

/-- Only requests for good destinations arrive. -/
def asksFor (P : Platform) (Good : String → Prop) : Guard (mikrouli P) := fun _ a =>
  match a with
  | .start r => ∀ url, Req.destination? r = some url → Good url
  | _ => True

theorem AllGood.acts (good : AllGood Good σ)
    (acts : (links P).Acts (asksFor P Good) σ σ') : AllGood Good σ' := by
  cases acts with
  | start n r _ allowed =>
    refine ⟨good.rows, good.entries, fun j e member url carries => ?_⟩
    rcases Shared.mem_own_started.mp member with ⟨-, rfl⟩ | old
    · exact allowed url carries
    · exact good.events j e old url carries
  | call step returned _ => exact good.called step returned
  | env ms _ => exact ⟨good.rows, good.entries, good.events⟩

theorem allGood_initial {w₀ : World} (rows : w₀.links.rows = [])
    (cold : ∀ slug, w₀.redis (LinkCacheService.cacheKey slug) = none) :
    AllGood (P := P) Good ⟨w₀, []⟩ := by
  constructor
  case rows =>
    intro l member
    rw [show w₀.links.rows = [] from rows] at member
    cases member
  case entries =>
    intro slug e entry
    exact absurd (entry.symm.trans (cold slug)) (by simp)
  case events => simp [Shared.own]

theorem allGood_reach {w₀ : World} {c : Config (mikrouli P)} (rows : w₀.links.rows = [])
    (cold : ∀ slug, w₀.redis (LinkCacheService.cacheKey slug) = none)
    (reach : Reach (asksFor P Good) (initial w₀) c) : AllGood Good c.shared :=
  (Contract.ofHistory_holds w₀).invariant links_sound (fun _ _ _ acts good => good.acts acts)
    (allGood_initial rows cold) reach

/-! ### Every entry path -/

variable (P) in
/-- Requests for a destination arrive through their pipeline. -/
def throughPipes (V : Validators) : Guard (mikrouli P) := fun _ a =>
  match a with
  | .start r => r.destination? = none ∨ ∃ incoming, receive P V incoming = .ok r
  | _ => True

theorem asksFor_of_throughPipes {V : Validators} (bounds : BoundsLength V)
    (σ : Shared (mikrouli P)) (a : Act (mikrouli P)) (arrives : throughPipes P V σ a) :
    asksFor P (UrlRules P V) σ a := by
  cases a with
  | start r =>
    intro url asks
    rcases arrives with none | ⟨incoming, received⟩
    · rw [asks] at none
      cases none
    · exact rules_of_receive bounds received asks
  | _ => trivial

/-- The thread looked the row up when there was none. -/
def FoundNone (σ : Shared (mikrouli P)) (i : Nat) (slug : String) : Prop :=
  ∃ e ∈ σ.log, e.thread = i ∧ e.event = .call (.findLink slug) (.ok none) ∧
    e.world.link? slug = none

/-- With good destinations alone, a resolution that answers not-found has found no row. -/
theorem AllGood.foundNone {w₀ : World} {c : Config (mikrouli P)} {G : Guard (mikrouli P)}
    (good : AllGood (fun url => hasHttpScheme P url = true) c.shared)
    (reach : Reach G (initial w₀) c) {slug : String}
    (answered : c.Answered i (.resolve slug) (.resolution .notFound)) :
    FoundNone c.shared i slug := by
  rcases ((links_holds reach).history_ok answered).resolution slug rfl with
    found | ⟨url, scheme, read⟩
  · obtain ⟨e, logged, own, event⟩ := Shared.mem_log_of_mem_own found
    obtain ⟨ch, w, returned⟩ := exec_of_logged reach e logged _ _ event
    refine ⟨e, logged, own, event, ?_⟩
    obtain ⟨rfl, failed | row⟩ := exec_findLink returned
    · cases failed
    · exact (Except.ok.inj row).symm
  · -- a destination that was read has a scheme the redirect serves
    have serves : hasHttpScheme P url = true := by
      rcases read with cached | ⟨l, row, rfl⟩
      · exact good.events i _ cached url ⟨rfl, slug, rfl⟩
      · exact good.events i _ row _ rfl
    rw [serves] at scheme
    cases scheme

/-- From a store without links, whatever bodies come in and however requests interleave: every
stored destination and every value written to the link cache follows the rules of `CreateLinkDto`,
a resolution answers not-found only where it found no row, and the two pipelines accept the same
optional strings and make the same of them. -/
theorem destinations_validated {V : Validators} (bounds : BoundsLength V) {w₀ : World}
    {c : Config (mikrouli P)} (rows : w₀.links.rows = [])
    (cold : ∀ slug, w₀.redis (LinkCacheService.cacheKey slug) = none)
    (reach : Reach (throughPipes P V) (initial w₀) c) :
    (∀ l ∈ c.shared.world.links.rows, UrlRules P V l.originalUrl) ∧
    (∀ e ∈ c.shared.log, ∀ slug value ex res,
      e.event = .call (.redisSet (LinkCacheService.cacheKey slug) value ex) res →
      UrlRules P V value) ∧
    (∀ i slug, c.Answered i (.resolve slug) (.resolution .notFound) →
      FoundNone c.shared i slug) ∧
    ∀ url expiresAt : Option String,
      (ValidationPipe.transform (CreateLinkDto P V) (.obj (argumentsOf url expiresAt))).toOption =
        (validateInput P V (argumentsOf url expiresAt)).toOption := by
  have good : AllGood (UrlRules P V) c.shared :=
    allGood_reach rows cold (reach.weaken (asksFor_of_throughPipes bounds))
  refine ⟨good.rows, ?_, ?_, transform_eq_validateInput⟩
  · intro e logged slug value ex res event
    refine good.events e.thread e.event ?_ value ?_
    · exact List.mem_map.mpr ⟨e, List.mem_filter.mpr ⟨logged, decide_eq_true rfl⟩, rfl⟩
    · rw [event]
      exact ⟨rfl, slug, rfl⟩
  · intro i slug answered
    have served : AllGood (fun url => hasHttpScheme P url = true) c.shared :=
      good.mono fun url rules => rules.scheme
    exact served.foundNone reach answered

/-! ### A concrete run -/

theorem plain_bounds : BoundsLength Validators.plain := by
  intro options url valid
  simp only [Validators.plain, Bool.and_eq_true, decide_eq_true_eq] at valid
  exact valid.1

/-- Decides that a creation comes from a body that holds its destination alone. -/
def isThroughPipes (_ : Shared (mikrouli Platform.plain)) :
    Act (mikrouli Platform.plain) → Bool
  | .start (.createLink user url expiresAt) =>
    decide ((receive Platform.plain Validators.plain
      (.postUrls user (.obj [("url", .str url)]))).toOption =
        some (.createLink user url expiresAt))
  | .start r => decide (r.destination? = none)
  | _ => true

theorem throughPipes_of_isThroughPipes (σ : Shared (mikrouli Platform.plain))
    (a : Act (mikrouli Platform.plain)) (test : isThroughPipes σ a = true) :
    throughPipes Platform.plain Validators.plain σ a := by
  cases a with
  | start r =>
    cases r with
    | createLink user url expiresAt =>
      refine .inr ⟨.postUrls user (.obj [("url", .str url)]), ?_⟩
      have accepted := of_decide_eq_true test
      cases received : receive Platform.plain Validators.plain
          (.postUrls user (.obj [("url", .str url)])) with
      | error e => rw [received] at accepted; cases accepted
      | ok r => rw [received] at accepted; exact congrArg Except.ok (Option.some.inj accepted)
    | _ => exact .inl (of_decide_eq_true test)
  | _ => trivial

/-- A guest's link is created, and another slug resolved. -/
theorem destinations_validated_guest :
    ∃ c : Config (mikrouli Platform.plain),
      (∃ l ∈ c.shared.world.links.rows, l.originalUrl = "https://example.com/" ∧
        UrlRules Platform.plain Validators.plain l.originalUrl) ∧
      FoundNone c.shared 1 "nosuch" := by
  obtain ⟨c, reach, passed⟩ := exists_reach_of_play throughPipes_of_isThroughPipes
    (initial (V := mikrouli Platform.plain) (World.empty 5000))
    [.start (.createLink ⟨"g", true⟩ "https://example.com/" none), .run 0 {},
     .run 0 { draw := "abcdef" }, .run 0 {}, .run 0 {}, .run 0 {}, .start (.resolve "nosuch"),
     .run 1 {}, .run 1 {}]
    (fun c => (c.shared.world.links.rows.any fun l =>
        decide (l.originalUrl = "https://example.com/")) &&
      decide (c.answer? 1 = some (.resolve "nosuch", .resolution .notFound)))
    (by decide +kernel)
  simp only [Bool.and_eq_true] at passed
  obtain ⟨l, member, dest⟩ := List.any_eq_true.mp passed.1
  have answered := answered_of_answer? (of_decide_eq_true passed.2)
  have valid := destinations_validated plain_bounds rfl (fun _ => rfl) reach
  exact ⟨c, ⟨l, member, of_decide_eq_true dest, valid.1 l member⟩, valid.2.2.1 1 "nosuch" answered⟩

end Destinations

end Mikrouli
