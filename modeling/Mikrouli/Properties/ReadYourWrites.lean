import Mikrouli.Properties.LinkSteps

/-! What a visitor is answered once a link has been handed out: until somebody edits or deletes it,
every later redirect finds it, whichever requests run beside and whichever Redis commands fail. -/

namespace Mikrouli

open Async Store

variable {P : Platform}

/-- No statement edits or deletes the row of the slug. -/
def leavesAlone (P : Platform) (slug : String) : Guard (mikrouli P) := fun _ a =>
  match a with
  | .call _ (.updateLink slug' _ _) _ | .call _ (.deleteLink slug') _ => bpchar slug' ≠ bpchar slug
  | _ => True

/-! ### Resolutions -/

/-- Where an answer to a resolution comes from. -/
def Resolved (slug : String) (es : Events P) : RedirectResolution → Prop
  | .active u => hasHttpScheme P u = true ∧ ReadDestination slug u es
  | .expired => ∃ (l : Link) (x : Int) (t : Nat), .call (.findLink slug) (.ok (some l)) ∈ es ∧
      .call .dateNow (.ok t) ∈ es ∧ l.expiresAt = some x ∧ x ≤ (t : Int)
  | .notFound => .call (.findLink slug) (.ok none) ∈ es ∨
      ∃ u, hasHttpScheme P u = false ∧ ReadDestination slug u es

section Resolutions

variable {slug : String} {es : Events P}

theorem ReadDestination.mono {u : String} {es' : Events P} (grown : es ⊆ es')
    (read : ReadDestination slug u es) : ReadDestination slug u es' :=
  read.imp (fun hit => grown hit) fun ⟨l, found, same⟩ => ⟨l, grown found, same⟩

/-- Nothing is asked of the commands. -/
abbrev unasked : Events P → Cmd → Prop := fun _ _ => True

theorem returns {c : Cmd} : Along (V := mikrouli P) unasked
    (OnSuccess fun es' a => .call c (.ok a) ∈ es') (await c) es :=
  await_along trivial fun _ _ _ _ _ _ _ same => same ▸ List.mem_cons_self

theorem expired_along {l : Link} : Along (V := mikrouli P) unasked
    (OnSuccess fun es' expired => expired = true → ∃ (x : Int) (t : Nat), .call .dateNow (.ok t) ∈ es' ∧
      l.expiresAt = some x ∧ x ≤ (t : Int)) (isExpired l) es := by
  unfold isExpired
  split
  · exact .pure fun late => by cases late
  next x expiry =>
    refine Along.next returns fun es' t _ read => .pure fun late => ⟨x, t, read, expiry, ?_⟩
    simpa [isExpiredAt] using late

theorem fromDatabase_along : Along (V := mikrouli P) unasked (OnSuccess (Resolved slug))
    (RedirectService.resolveFromDatabase P slug) es := by
  refine Along.next returns fun es₁ found _ read => ?_
  cases found with
  | none => exact .pure (.inl read)
  | some l =>
    refine Along.next expired_along fun es₂ expired grown late => ?_
    replace read := grown read
    split
    next passed =>
      obtain ⟨x, t, clock, expiry, before⟩ := late passed
      exact .pure ⟨l, x, t, read, clock, expiry, before⟩
    · split
      next scheme => exact .pure (.inr ⟨l.originalUrl, scheme, .inr ⟨l, read, rfl⟩⟩)
      next scheme =>
        rw [Bool.not_eq_false] at scheme
        refine Along.next (Q := fun _ _ => True) (Along.unasked fun _ _ _ _ => trivial)
          fun es₃ _ grown _ => .pure ⟨scheme, .inr ⟨l, grown read, rfl⟩⟩

theorem resolved_along : Along (V := mikrouli P) unasked (OnSuccess (Resolved slug))
    (RedirectService.resolve P slug) es := by
  refine Along.next (Q := fun es' got => ∀ u, got = some u →
    .call (.redisGet (LinkCacheService.cacheKey slug)) (.ok (some u)) ∈ es')
    (.handled (returns.mono fun es' r post got same u hit => ?_) fun _ _ _ => .pure fun _ same => ?_)
    fun es₁ got _ read => ?_
  · subst hit
    exact post _ same
  · cases same
  · cases got with
    | none => exact fromDatabase_along
    | some u =>
      simp only
      split
      next scheme => exact .pure (.inr ⟨u, scheme, .inl (read u rfl)⟩)
      next scheme =>
        rw [Bool.not_eq_false] at scheme
        exact .pure ⟨scheme, .inl (read u rfl)⟩

/-- What a thread that is asked to resolve a slug has seen when it answers. -/
def ResolvedEnd (r : Req) (es : Events P) (res : Except AppError Ans) : Prop :=
  ∀ slug a, r = .resolve slug → res = .ok a → ∃ outcome, a = .resolution outcome ∧
    Resolved slug es outcome

theorem resolvedEnd_along (r : Req) :
    Along (V := mikrouli P) unasked (ResolvedEnd r) (serve P r) [.start r] := by
  cases r with
  | resolve slug =>
    apply Along.map
    refine resolved_along.mono fun es' r post slug' a same answered => ?_
    cases same
    cases r with
    | ok outcome =>
      cases answered
      exact ⟨outcome, rfl, post outcome rfl⟩
    | error e => cases answered
  | _ => exact Along.unasked fun _ _ _ _ same => by cases same

theorem resolved_of_answered {G : Guard (mikrouli P)} {w : World} {c : Config (mikrouli P)}
    (reach : Reach G (initial w) c) {i : Nat} {a : Ans} (answered : c.Answered i (.resolve slug) a) :
    ∃ outcome, a = .resolution outcome ∧ Resolved slug (c.shared.own i) outcome :=
  ((Contract.ofHistory_holds w).reach (Contract.ofHistory_sound resolvedEnd_along) reach).history_ok
    answered slug a rfl rfl

end Resolutions

/-! ### The row that stays -/

/-- What has been seen of the slug anywhere in the run: its one row, and the row's destination. -/
structure Steady (slug : String) (σ : Shared (mikrouli P)) : Prop where
  inserted : ∀ j fields l, .call (.insertLinkWithOutbox fields) (.ok l) ∈ σ.own j →
    l.slugKey = bpchar slug → σ.world.link? slug = some l
  found : ∀ j slug' l, .call (.findLink slug') (.ok (some l)) ∈ σ.own j →
    bpchar slug' = bpchar slug → σ.world.link? slug = some l
  keys : ∀ j slug' l, .call (.findLink slug') (.ok (some l)) ∈ σ.own j → l.slugKey = bpchar slug'
  entries : ∀ slug' e, bpchar slug' = bpchar slug →
    σ.world.redis (LinkCacheService.cacheKey slug') = some e →
    ∃ l, σ.world.link? slug = some l ∧ l.originalUrl = e.value
  reads : ∀ j slug' u, bpchar slug' = bpchar slug →
    .call (.redisGet (LinkCacheService.cacheKey slug')) (.ok (some u)) ∈ σ.own j →
    ∃ l, σ.world.link? slug = some l ∧ l.originalUrl = u
  updated : ∀ j slug' userId url n, .call (.updateLink slug' userId url) (.ok n) ∈ σ.own j →
    bpchar slug' ≠ bpchar slug
  clocks : ∀ j t, .call .dateNow (.ok t) ∈ σ.own j → t ≤ σ.world.now

section Steady

variable {slug : String} {σ : Shared (mikrouli P)} {i : Nat} {c : Cmd} {ch : Choice} {w : World}
  {res : Except AppError c.Res}

/-- Only an UPDATE or a DELETE takes a row away or changes it. -/
theorem row_stays (returned : exec P i c ch σ.world = some (res, w))
    (allowed : leavesAlone P slug σ (.call i c ch)) {l : Link} (row : σ.world.link? slug = some l) :
    w.link? slug = some l := by
  cases c with
  | insertLinkWithOutbox fields =>
    rcases exec_insertLinkWithOutbox returned with ⟨rfl, -⟩ | ⟨link, links, -, inserted, -, rfl⟩
    · exact row
    · change ({ σ.world with links := links } : World).link? slug = some l
      rw [World.link?_insert inserted]
      split
      next same =>
        rw [World.link?_of_insert inserted same] at row
        cases row
      · exact row
  | updateLink slug' userId url =>
    rcases exec_updateLink returned with ⟨rfl, -⟩ | ⟨n, -, rfl⟩
    · exact row
    · have apart : l.slugKey ≠ bpchar slug' := by
        rw [(World.link?_eq_some.mp row).2]
        exact Ne.symm allowed
      change ({ σ.world with links := σ.world.setOriginalUrl slug' userId url } : World).link? slug = _
      rw [World.link?_setOriginalUrl, row, Option.map_some, if_neg fun both => apart both.1]
  | deleteLink slug' =>
    rcases exec_deleteLink returned with ⟨rfl, -⟩ | ⟨n, -, rfl⟩
    · exact row
    · change ({ σ.world with
        links := σ.world.links.delete fun l => decide (l.slugKey = bpchar slug') } : World).link? slug = _
      rw [World.link?_delete, if_neg (Ne.symm allowed), row]
  | _ =>
    rw [World.link?, (exec_frame returned).links rfl]
    exact row

/-- A row a thread is about to cache under the slug is the row that stays. -/
theorem Steady.row_of_holds (steady : Steady slug σ) {slug' : String} {l : Link}
    (holds : Holds (σ.own i) slug' l) (same : bpchar slug' = bpchar slug) :
    σ.world.link? slug = some l := by
  cases holds with
  | created inserted => exact steady.inserted i _ l inserted same
  | @edited slug₀ url l₀ n found updated =>
    -- the row was found under the slug that was edited
    by_cases mine : bpchar slug₀ = bpchar slug
    · exact absurd mine (steady.updated i _ _ _ _ updated)
    · exact absurd same (fun same => mine ((steady.keys i _ _ found).symm.trans same))
  | read _ found => exact steady.found i _ l found same

theorem Steady.called (steady : Steady slug σ) (step : LinkStep (σ.own i) c)
    (returned : exec P i c ch σ.world = some (res, w))
    (allowed : leavesAlone P slug σ (.call i c ch)) : Steady slug (σ.called i c res w) := by
  have stays {l : Link} : σ.world.link? slug = some l → w.link? slug = some l :=
    row_stays returned allowed
  constructor
  case inserted =>
    intro j fields l event same
    rcases Shared.mem_own_called.mp event with ⟨-, new⟩ | old
    · cases new
      rcases exec_insertLinkWithOutbox returned with ⟨-, e, failed⟩ | ⟨link, links, ok, inserted, -, rfl⟩
      · cases failed
      · cases ok
        change ({ σ.world with links := links } : World).link? slug = some l
        rw [World.link?_insert inserted, if_pos same]
    · exact stays (steady.inserted j fields l old same)
  case found =>
    intro j slug' l event same
    rcases Shared.mem_own_called.mp event with ⟨-, new⟩ | old
    · cases new
      rcases exec_findLink returned with ⟨rfl, failed | row⟩
      · cases failed
      · rw [Shared.called_world, World.link?, ← same]
        exact (Except.ok.inj row).symm
    · exact stays (steady.found j slug' l old same)
  case keys =>
    intro j slug' l event
    rcases Shared.mem_own_called.mp event with ⟨-, new⟩ | old
    · cases new
      rcases exec_findLink returned with ⟨-, failed | row⟩
      · cases failed
      · exact (World.link?_eq_some.mp (Except.ok.inj row).symm).2
    · exact steady.keys j slug' l old
  case entries =>
    intro slug' e same after
    rcases entry_origin (P := P) returned after with before | ⟨value, ex, rfl, -, rfl⟩
    · obtain ⟨l, row, value⟩ := steady.entries slug' e same before
      exact ⟨l, stays row, value⟩
    · rcases step with ⟨family, key⟩ | ⟨slug'', l, holds, key, rfl, -⟩
      · exact absurd key (cacheKey_ne_buildRevocationKey slug' family)
      · cases cacheKey_inj key
        exact ⟨l, stays (steady.row_of_holds holds same), rfl⟩
  case reads =>
    intro j slug' u same event
    rcases Shared.mem_own_called.mp event with ⟨-, new⟩ | old
    · cases new
      rcases exec_redisGet returned with ⟨rfl, ⟨-, failed⟩ | ⟨-, hit⟩⟩
      · cases failed
      · obtain ⟨entry, stored, -, rfl⟩ := Expiring.get_eq_some.mp (Except.ok.inj hit).symm
        exact steady.entries slug' entry same stored
    · obtain ⟨l, row, value⟩ := steady.reads j slug' u same old
      exact ⟨l, stays row, value⟩
  case updated =>
    intro j slug' userId url n event
    rcases Shared.mem_own_called.mp event with ⟨-, new⟩ | old
    · cases new
      exact allowed
    · exact steady.updated j slug' userId url n old
  case clocks =>
    intro j t event
    have clock : w.now = σ.world.now := (exec_frame returned).now
    rw [Shared.called_world, clock]
    rcases Shared.mem_own_called.mp event with ⟨-, new⟩ | old
    · cases new
      obtain ⟨-, now⟩ := exec_dateNow returned
      cases now
      exact le_rfl
    · exact steady.clocks j t old

theorem Steady.acts {σ' : Shared (mikrouli P)} (steady : Steady slug σ)
    (acts : (links P).Acts (leavesAlone P slug) σ σ') : Steady slug σ' := by
  cases acts with
  | start n r _ allowed =>
    refine ⟨fun j fields l event => ?_, fun j slug' l event => ?_, fun j slug' l event => ?_,
      steady.entries, fun j slug' u same event => ?_, fun j slug' userId url n event => ?_,
      fun j t event => ?_⟩
    all_goals rw [Shared.call_mem_own_started] at event
    · exact steady.inserted j fields l event
    · exact steady.found j slug' l event
    · exact steady.keys j slug' l event
    · exact steady.reads j slug' u same event
    · exact steady.updated j slug' userId url n event
    · exact steady.clocks j t event
  | call pre returned allowed => exact steady.called pre returned allowed
  | env ms _ =>
    exact ⟨steady.inserted, steady.found, steady.keys, steady.entries, steady.reads, steady.updated,
      fun j t event => (steady.clocks j t event).trans (Nat.le_add_right _ _)⟩

theorem steady_initial {w₀ : World}
    (cold : ∀ slug', bpchar slug' = bpchar slug →
      w₀.redis (LinkCacheService.cacheKey slug') = none) : Steady slug (⟨w₀, []⟩ : Shared (mikrouli P)) := by
  constructor
  case entries =>
    intro slug' e same stored
    change w₀.redis _ = some e at stored
    rw [cold slug' same] at stored
    cases stored
  all_goals
    intros
    exact absurd ‹_ ∈ _› List.not_mem_nil

end Steady

/-! ### Visits after the creation -/

/-- The row stands, and the threads from `n` on have looked it up with success only. -/
structure Served (n : Nat) (slug : String) (l : Link) (σ : Shared (mikrouli P)) : Prop where
  row : σ.world.link? slug = some l
  found : ∀ j, n ≤ j → ∀ slug' got, bpchar slug' = bpchar slug →
    .call (.findLink slug') (.ok got) ∈ σ.own j → got = some l

section Served

variable {n : Nat} {slug : String} {l : Link} {σ σ' : Shared (mikrouli P)}

theorem Served.acts (served : Served n slug l σ) (acts : (links P).Acts (leavesAlone P slug) σ σ') :
    Served n slug l σ' := by
  cases acts with
  | start m r _ _ =>
    refine ⟨served.row, fun j from' slug' got same event => ?_⟩
    exact served.found j from' slug' got same (Shared.call_mem_own_started.mp event)
  | call _ returned allowed =>
    refine ⟨row_stays returned allowed served.row, fun j from' slug' got same event => ?_⟩
    rcases Shared.mem_own_called.mp event with ⟨-, new⟩ | old
    · cases new
      rcases exec_findLink returned with ⟨-, failed | row⟩
      · cases failed
      · rw [Except.ok.inj row, World.link?, same]
        exact served.row
    · exact served.found j from' slug' got same old
  | env ms _ => exact ⟨served.row, served.found⟩

variable {w₀ : World} {c₁ c₂ : Config (mikrouli P)} {i j : Nat} {r : Req} {link : PublicLink}
  {url : String}

/-- A creation that has answered inserted the row it answers with. -/
theorem inserted_of_created {G : Guard (mikrouli P)} (reach : Reach G (initial w₀) c₁)
    (creates : r.Creates url) (created : c₁.Answered j r (.link link)) :
    ∃ fields l, link = toPublicLinkSchema l ∧
      .call (.insertLinkWithOutbox fields) (.ok l) ∈ c₁.shared.own j := by
  obtain ⟨k, -, l, tried, -, same⟩ := ((links_holds reach).history_ok created).creation url creates
  cases same
  have attempt : .ok l ∈ attempts (c₁.shared.own j) := tried ▸ List.mem_cons_self
  obtain ⟨e, member, was⟩ := List.mem_filterMap.mp attempt
  unfold linkAttempt at was
  split at was
  next fields res =>
    cases was
    exact ⟨fields, l, rfl, member⟩
  · cases was

/-- A destination that was read for the slug is the row's. -/
theorem originalUrl_of_read (steady : Steady slug σ) (row : σ.world.link? slug = some l) {u : String}
    {slug' : String} (same : bpchar slug' = bpchar slug) (read : ReadDestination slug' u (σ.own i)) :
    u = l.originalUrl := by
  rcases read with hit | ⟨l', found, rfl⟩
  · obtain ⟨l', row', rfl⟩ := steady.reads i slug' u same hit
    rw [row] at row'
    cases row'
    rfl
  · have row' := steady.found i slug' l' found same
    rw [row] at row'
    cases row'
    rfl

/-- Whoever asks for a link after its creator was answered is sent to its destination. The answer is
another only once the link has expired, or for a destination that is not served at all, and an error
only where the database fails. -/
theorem resolve_of_created (slug : String) (same : bpchar slug = bpchar link.shortUrl)
    (cold : ∀ slug', bpchar slug' = bpchar link.shortUrl →
      w₀.redis (LinkCacheService.cacheKey slug') = none)
    (reach₁ : Reach (leavesAlone P link.shortUrl) (initial w₀) c₁) (creates : r.Creates url)
    (created : c₁.Answered j r (.link link))
    (reach₂ : Reach (leavesAlone P link.shortUrl) c₁ c₂) (later : c₁.threads.length ≤ i) :
    (∀ a, c₂.Answered i (.resolve slug) a → a = .resolution (.active link.originalUrl) ∨
      (a = .resolution .expired ∧ ∃ x, link.expiresAt = some x ∧ x ≤ (c₂.shared.world.now : Int)) ∨
      (a = .resolution .notFound ∧ hasHttpScheme P link.originalUrl = false)) ∧
      ∀ e, c₂.threads[i]? = some (.resolve slug, .fail e) →
        e = .queryFailed ∧ .call (.findLink slug) (.error e) ∈ c₂.shared.own i := by
  have start : (links P).Holds (leavesAlone P link.shortUrl) (initial w₀) := links_holds .refl
  have reach := reach₁.trans reach₂
  obtain ⟨fields, l, rfl, inserted⟩ := inserted_of_created reach₁ creates created
  have steady₁ : Steady l.shortUrl.1 c₁.shared :=
    start.invariant links_sound (fun _ _ _ acts steady => steady.acts acts) (steady_initial cold) reach₁
  have steady₂ : Steady l.shortUrl.1 c₂.shared :=
    start.invariant links_sound (fun _ _ _ acts steady => steady.acts acts) (steady_initial cold) reach
  -- the row stands when the creation is answered; the threads from then on have done nothing yet
  have holds₁ := start.reach links_sound reach₁
  have served₁ : Served c₁.threads.length l.shortUrl.1 l c₁.shared := by
    refine ⟨steady₁.inserted j fields l inserted rfl, fun i later slug' got _ event => ?_⟩
    obtain ⟨e, logged, rfl, -⟩ := Shared.mem_log_of_mem_own event
    exact absurd (holds₁.logged e logged) (Nat.not_lt.mpr later)
  have served : Served c₁.threads.length l.shortUrl.1 l c₂.shared :=
    holds₁.invariant links_sound (fun _ _ _ acts served => served.acts acts) served₁ reach₂
  constructor
  · intro a answered
    obtain ⟨outcome, rfl, resolved⟩ := resolved_of_answered reach answered
    cases outcome with
    | active u =>
      rw [originalUrl_of_read steady₂ served.row same resolved.2]
      exact .inl rfl
    | expired =>
      obtain ⟨l', x, t, found, clock, expiry, late⟩ := resolved
      cases served.found i later slug _ same found
      have past := steady₂.clocks i t clock
      exact .inr (.inl ⟨rfl, x, expiry, late.trans (Int.ofNat_le.mpr past)⟩)
    | notFound =>
      rcases resolved with missing | ⟨u, scheme, read⟩
      · cases served.found i later slug _ same missing
      · rw [originalUrl_of_read steady₂ served.row same read] at scheme
        exact .inr (.inr ⟨rfl, scheme⟩)
  · intro e failed
    exact ((links_holds reach).history_error failed).resolution slug rfl

end Served

/-! ### A concrete run -/

/-- Decides `leavesAlone`. -/
def isLeftAlone (slug : String) (_ : Shared (mikrouli P)) : Act (mikrouli P) → Bool
  | .call _ (.updateLink slug' _ _) _ | .call _ (.deleteLink slug') _ =>
    decide (bpchar slug' ≠ bpchar slug)
  | _ => true

theorem leavesAlone_of_isLeftAlone (slug : String) (σ : Shared (mikrouli P)) (a : Act (mikrouli P))
    (test : isLeftAlone slug σ a = true) : leavesAlone P slug σ a := by
  unfold isLeftAlone at test
  split at test
  · exact (of_decide_eq_true test : bpchar _ ≠ bpchar slug)
  · exact (of_decide_eq_true test : bpchar _ ≠ bpchar slug)
  next other other' =>
    unfold leavesAlone
    split
    · exact absurd rfl (other _ _ _ _ _)
    · exact absurd rfl (other' _ _ _)
    · trivial

/-- The link of the guest, which never expires. -/
def guestsLink : PublicLink := ⟨"abcdef", "https://ab.cd", 5000, none⟩

def guestsCreation : Req := .createLink ⟨"a", true⟩ "https://ab.cd" (some none)

/-- A visit without Redis, beside a removal of another link. -/
def visitOnce : List (Move (mikrouli Platform.plain)) :=
  [.start (.resolve "abcdef"), .start (.removeLink "a" "ghijkl"), .run 1 { fault := some 0 },
   .run 2 {}, .run 1 {}, .run 1 { fault := some 0 }]

def isVisited (c : Config (mikrouli Platform.plain)) : Bool :=
  decide (c.answer? 1 = some (.resolve "abcdef", .resolution (.active "https://ab.cd")))

/-- The link is handed out though it could not be cached, and the visit finds it. -/
theorem resolve_of_created_guest :
    ∃ c : Config (mikrouli Platform.plain),
      c.Answered 1 (.resolve "abcdef") (.resolution (.active "https://ab.cd")) ∧
      ∀ a, c.Answered 1 (.resolve "abcdef") a → a = .resolution (.active "https://ab.cd") ∨
        (a = .resolution .expired ∧ ∃ x, guestsLink.expiresAt = some x ∧ x ≤ (c.shared.world.now : Int)) ∨
        (a = .resolution .notFound ∧ hasHttpScheme Platform.plain guestsLink.originalUrl = false) := by
  obtain ⟨c₁, reach₁, passed⟩ := exists_reach_of_play (leavesAlone_of_isLeftAlone guestsLink.shortUrl)
    (initial (V := mikrouli Platform.plain) (World.empty 5000))
    [.start guestsCreation, .run 0 { draw := "abcdef" }, .run 0 {}, .run 0 { fault := some 0 }]
    (fun c => decide (c.answer? 0 = some (guestsCreation, .link guestsLink)) &&
      (decide (c.threads.length ≤ 1) && (c.play (isLeftAlone guestsLink.shortUrl) visitOnce).any isVisited))
    (by decide +kernel)
  obtain ⟨created, rest⟩ := (Bool.and_eq_true _ _).mp passed
  obtain ⟨few, visited⟩ := (Bool.and_eq_true _ _).mp rest
  obtain ⟨c₂, reach₂, answered⟩ := exists_reach_of_play
    (leavesAlone_of_isLeftAlone guestsLink.shortUrl) c₁ visitOnce isVisited visited
  refine ⟨c₂, answered_of_answer? (of_decide_eq_true answered), ?_⟩
  exact (resolve_of_created "abcdef" rfl (fun _ _ => rfl) reach₁ (.inl ⟨_, _, rfl⟩)
    (answered_of_answer? (of_decide_eq_true created)) reach₂ (of_decide_eq_true few)).1

end Mikrouli
