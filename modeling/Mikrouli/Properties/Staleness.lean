import Mikrouli.Properties.LinkCache
import Mikrouli.Properties.LinkSteps

/-! How old an answer of `resolve` may be, whichever Redis commands fail. -/

namespace Mikrouli

open Async Store

variable {P : Platform}

/-- A row is cached only if it has no expiry or, by every reading of the clock its thread has made,
at least a second left; and no PATCH misses the row it found. -/
def cachesInTime (P : Platform) : Guard (mikrouli P) := fun σ a =>
  match a with
  | .call i (.redisSet _ _ _) _ => ∀ slug l t, Holds (σ.own i) slug l →
      .call .dateNow (.ok t) ∈ σ.own i → HasLead l.expiresAt t
  | .call _ (.updateLink slug userId _) _ => ∃ l, σ.world.link? slug = some l ∧ l.userId = userId
  | _ => True

/-! ### Moments -/

/-- Thread `i` was asked at `t`. -/
def BeganAt (σ : Shared (mikrouli P)) (i t : Nat) : Prop :=
  ∃ e ∈ σ.log, e.thread = i ∧ (∃ r, e.event = .start r) ∧ e.world.now = t

/-- At the moment `m` of the run the database held the destination for the slug. -/
def HeldAt (σ : Shared (mikrouli P)) (slug url : String) (m : Entry (mikrouli P)) : Prop :=
  m ∈ σ.log ∧ ∃ l, m.world.link? slug = some l ∧ l.originalUrl = url

/-- Request `j`, asked at `t₀`, cached the destination at `t₁`, and the database held it at the
moment `m` in between. -/
structure Cached (σ : Shared (mikrouli P)) (slug url : String) (j t₀ t₁ : Nat)
    (m : Entry (mikrouli P)) : Prop where
  began : BeganAt σ j t₀
  wrote : ∃ e ∈ σ.log, e.thread = j ∧ e.world.now = t₁ ∧
    ∃ ex, e.event = .call (.redisSet (LinkCacheService.cacheKey slug) url ex) (.ok ())
  held : HeldAt σ slug url m
  after : t₀ ≤ m.world.now
  before : m.world.now ≤ t₁

section Moments

variable {σ σ' : Shared (mikrouli P)} {slug url : String} {j t₀ t₁ : Nat} {m : Entry (mikrouli P)}

theorem BeganAt.mono (grows : ∀ e ∈ σ.log, e ∈ σ'.log) (began : BeganAt σ j t₀) :
    BeganAt σ' j t₀ := by
  obtain ⟨e, logged, rest⟩ := began
  exact ⟨e, grows e logged, rest⟩

theorem Cached.mono (grows : ∀ e ∈ σ.log, e ∈ σ'.log) (cached : Cached σ slug url j t₀ t₁ m) :
    Cached σ' slug url j t₀ t₁ m := by
  obtain ⟨began, ⟨e, logged, wrote⟩, ⟨logged', held⟩, after, before⟩ := cached
  exact ⟨began.mono grows, ⟨e, grows e logged, wrote⟩, ⟨grows m logged', held⟩, after, before⟩

theorem link?_congr {w : World} {s s' : String} (same : bpchar s = bpchar s') :
    w.link? s = w.link? s' := by
  rw [World.link?, same, World.link?]

end Moments

/-! ### The chronicle -/

/-- What the log says of its own moments: which row each event saw or left, and where the entries
of the cache and the answers read from it come from. -/
structure Chronicle (σ : Shared (mikrouli P)) : Prop where
  past : ∀ e ∈ σ.log, e.world.now ≤ σ.world.now
  ordered : σ.log.Pairwise fun later earlier => earlier.world.now ≤ later.world.now
  began : ∀ e ∈ σ.log, ∃ t ≤ e.world.now, BeganAt σ e.thread t
  found : ∀ e ∈ σ.log, ∀ slug l, e.event = .call (.findLink slug) (.ok (some l)) →
    e.world.link? slug = some l
  inserted : ∀ e ∈ σ.log, ∀ fields l, e.event = .call (.insertLinkWithOutbox fields) (.ok l) →
    e.world.link? l.shortUrl.1 = some l
  updated : ∀ e ∈ σ.log, ∀ slug userId url n,
    e.event = .call (.updateLink slug userId url) (.ok n) →
    ∃ l, e.world.link? slug = some l ∧ l.originalUrl = url
  entries : ∀ slug e, σ.world.redis (LinkCacheService.cacheKey slug) = some e →
    ∃ j t₀ t₁ m, Cached σ slug e.value j t₀ t₁ m ∧
      ∃ d ≤ t₁ + 1000 * CACHE_TTL_CAP_SECONDS, e.deadline = some d
  reads : ∀ e ∈ σ.log, ∀ slug url,
    e.event = .call (.redisGet (LinkCacheService.cacheKey slug)) (.ok (some url)) →
    ∃ j t₀ t₁ m, Cached σ slug url j t₀ t₁ m ∧ t₁ ≤ e.world.now ∧
      e.world.now < t₁ + 1000 * CACHE_TTL_CAP_SECONDS

section Chronicle

variable {σ : Shared (mikrouli P)} {i : Nat} {c : Cmd} {ch : Choice} {w w' : World}
  {res : Except AppError c.Res}

/-- The row a thread is about to cache was in the database while the thread ran. -/
theorem Chronicle.heldAt (chronicle : Chronicle σ) {slug : String} {l : Link}
    (holds : Holds (σ.own i) slug l) : ∃ m, m.thread = i ∧ HeldAt σ slug l.originalUrl m := by
  cases holds with
  | created inserted =>
    obtain ⟨m, logged, own, event⟩ := Shared.mem_log_of_mem_own inserted
    exact ⟨m, own, logged, l, chronicle.inserted m logged _ l event, rfl⟩
  | @edited slug₀ url l₀ n found updated =>
    obtain ⟨e, logged', -, event'⟩ := Shared.mem_log_of_mem_own found
    -- the moment is that of the UPDATE, which hit the row that was found
    obtain ⟨m, logged, own, event⟩ := Shared.mem_log_of_mem_own updated
    obtain ⟨l, row, dest⟩ := chronicle.updated m logged _ _ _ _ event
    have key := (World.link?_eq_some.mp (chronicle.found e logged' _ _ event')).2
    refine ⟨m, own, logged, l, ?_, dest⟩
    rw [← row]
    exact link?_congr key
  | read _ found =>
    obtain ⟨m, logged, own, event⟩ := Shared.mem_log_of_mem_own found
    exact ⟨m, own, logged, l, chronicle.found m logged _ l event, rfl⟩

/-- With a second to spare, an entry's life is capped. -/
theorem cacheLife_le_cap {expiresAt : Option Int} {now : Nat} (lead : HasLead expiresAt now) :
    ∃ n ≤ CACHE_TTL_CAP_SECONDS, cacheLife expiresAt now = some n := by
  cases expiresAt with
  | none => exact ⟨CACHE_TTL_CAP_SECONDS, le_rfl, rfl⟩
  | some x =>
    -- what is left is at least a second, so the life in seconds is not zero
    have left := lead x rfl
    have ahead : ¬x - (now : Int) ≤ 0 := by omega
    have seconds : 0 < min ((x - now) / 1000).toNat CACHE_TTL_CAP_SECONDS := by
      simp only [CACHE_TTL_CAP_SECONDS]
      omega
    refine ⟨min ((x - now) / 1000).toNat CACHE_TTL_CAP_SECONDS, Nat.min_le_right _ _, ?_⟩
    simp only [cacheLife, LinkCacheService.ttlSecondsUntil, ahead, ↓reduceIte]
    exact Option.filter_some_pos (by simpa using seconds)


theorem called_grows (e : Entry (mikrouli P)) (logged : e ∈ σ.log) :
    e ∈ (σ.called i c res w).log := List.mem_cons_of_mem _ logged

theorem mem_log_called {e : Entry (mikrouli P)} :
    e ∈ (σ.called i c res w).log ↔ e = ⟨i, .call c res, w⟩ ∨ e ∈ σ.log := List.mem_cons

/-- The entry a thread sets for a slug comes with the moment at which the database held its
value, and a life within the cap. -/
theorem Chronicle.wrote (chronicle : Chronicle σ) {slug value : String} {ex : Option Nat}
    (step : LinkStep (σ.own i) (.redisSet (LinkCacheService.cacheKey slug) value ex))
    (allowed : cachesInTime P σ (.call i (.redisSet (LinkCacheService.cacheKey slug) value ex) ch)) :
    (∃ m, m.thread = i ∧ HeldAt σ slug value m) ∧ ∃ n ≤ CACHE_TTL_CAP_SECONDS, ex = some n := by
  -- a key of the allowlist is never that of a slug
  rcases step with ⟨family, key⟩ | ⟨slug', l, holds, key, rfl, ⟨t, read, rfl⟩, -⟩
  · exact absurd key (cacheKey_ne_buildRevocationKey slug family)
  · cases cacheKey_inj key
    refine ⟨chronicle.heldAt holds, ?_⟩
    rcases read with stays | read
    · rw [stays]
      exact ⟨CACHE_TTL_CAP_SECONDS, le_rfl, rfl⟩
    · exact cacheLife_le_cap (allowed slug l t holds read)

theorem Chronicle.called (chronicle : Chronicle σ) (asked : ∃ r, .start r ∈ σ.own i)
    (step : LinkStep (σ.own i) c) (returned : exec P i c ch σ.world = some (res, w))
    (allowed : cachesInTime P σ (.call i c ch)) : Chronicle (σ.called i c res w) := by
  have grows : ∀ e ∈ σ.log, e ∈ (σ.called i c res w).log := called_grows
  have clock : w.now = σ.world.now := (exec_frame returned).now
  have start : ∃ t ≤ w.now, BeganAt (σ.called i c res w) i t := by
    obtain ⟨r, started⟩ := asked
    obtain ⟨e, logged, own, event⟩ := Shared.mem_log_of_mem_own started
    rw [clock]
    exact ⟨e.world.now, chronicle.past e logged, e, grows e logged, own, ⟨r, event⟩, rfl⟩
  constructor
  case past =>
    intro e logged
    rw [Shared.called_world]
    rcases mem_log_called.mp logged with rfl | old
    · exact le_rfl
    · rw [clock]
      exact chronicle.past e old
  case ordered =>
    refine List.pairwise_cons.mpr ⟨fun e logged => ?_, chronicle.ordered⟩
    rw [clock]
    exact chronicle.past e logged
  case began =>
    intro e logged
    rcases mem_log_called.mp logged with rfl | old
    · exact start
    · obtain ⟨t, before, began⟩ := chronicle.began e old
      exact ⟨t, before, began.mono grows⟩
  case found =>
    intro e logged slug l event
    rcases mem_log_called.mp logged with rfl | old
    · cases event
      rcases exec_findLink returned with ⟨rfl, failed | row⟩
      · cases failed
      · exact (Except.ok.inj row).symm
    · exact chronicle.found e old slug l event
  case inserted =>
    intro e logged fields l event
    rcases mem_log_called.mp logged with rfl | old
    · cases event
      rcases exec_insertLinkWithOutbox returned with
        ⟨-, e, failed⟩ | ⟨link, links, same, inserted, -, rfl⟩
      · cases failed
      · cases same
        change ({ σ.world with links := links } : World).link? l.shortUrl.1 = some l
        rw [World.link?_insert inserted]
        exact if_pos rfl
    · exact chronicle.inserted e old fields l event
  case updated =>
    intro e logged slug userId url n event
    rcases mem_log_called.mp logged with rfl | old
    · cases event
      obtain ⟨l, row, owner⟩ := allowed
      rcases exec_updateLink returned with ⟨-, failed⟩ | ⟨n', -, rfl⟩
      · cases failed
      -- the UPDATE did not miss, so the row it left has the new destination
      · refine ⟨{ l with originalUrl := url }, ?_, rfl⟩
        change ({ σ.world with links := σ.world.setOriginalUrl slug userId url } : World).link?
          slug = _
        rw [World.link?_setOriginalUrl, row, Option.map_some,
          if_pos ⟨(World.link?_eq_some.mp row).2, owner⟩]
    · exact chronicle.updated e old slug userId url n event
  case entries =>
    intro slug e after
    rcases entry_origin (P := P) returned after with before | ⟨value, ex, rfl, event, rfl⟩
    · obtain ⟨j, t₀, t₁, m, cached, lives⟩ := chronicle.entries slug e before
      exact ⟨j, t₀, t₁, m, cached.mono grows, lives⟩
    · -- the writer's own start, the moment it stands on and its SET, in this order
      obtain ⟨⟨m, own, logged, held⟩, n, short, rfl⟩ := chronicle.wrote step allowed
      obtain ⟨t₀, before, began⟩ := chronicle.began m logged
      rw [own] at began
      refine ⟨i, t₀, w.now, m, ⟨began.mono grows, ?_, ⟨grows m logged, held⟩, before, ?_⟩, ?_⟩
      · exact ⟨_, List.mem_cons_self, rfl, rfl, some n, event⟩
      · rw [clock]
        exact chronicle.past m logged
      · refine ⟨σ.world.now + 1000 * n, ?_, rfl⟩
        rw [clock]
        omega
  case reads =>
    intro e logged slug url event
    rcases mem_log_called.mp logged with rfl | old
    · cases event
      rcases exec_redisGet returned with ⟨rfl, ⟨-, failed⟩ | ⟨-, hit⟩⟩
      · cases failed
      -- a hit is an entry that is still live, written by the thread it comes from
      · obtain ⟨entry, stored, live, rfl⟩ := Expiring.get_eq_some.mp (Except.ok.inj hit).symm
        obtain ⟨j, t₀, t₁, m, cached, d, short, deadline⟩ := chronicle.entries slug entry stored
        obtain ⟨e', logged', -, rfl, -⟩ := cached.wrote
        exact ⟨j, t₀, _, m, cached.mono grows, chronicle.past e' logged',
          (Stamped.lt_of_liveAt deadline live).trans_le short⟩
    · obtain ⟨j, t₀, t₁, m, cached, fresh⟩ := chronicle.reads e old slug url event
      exact ⟨j, t₀, t₁, m, cached.mono grows, fresh⟩

theorem Chronicle.started (chronicle : Chronicle σ) (n : Nat) (r : Req) :
    Chronicle (σ.started n r) := by
  have grows : ∀ e ∈ σ.log, e ∈ (σ.started n r).log := fun e => List.mem_cons_of_mem _
  constructor
  case past =>
    intro e logged
    rcases List.mem_cons.mp logged with rfl | old
    · exact le_rfl
    · exact chronicle.past e old
  case ordered => exact List.pairwise_cons.mpr ⟨chronicle.past, chronicle.ordered⟩
  case began =>
    intro e logged
    rcases List.mem_cons.mp logged with rfl | old
    -- the request begins now
    · exact ⟨σ.world.now, le_rfl, _, List.mem_cons_self, rfl, ⟨r, rfl⟩, rfl⟩
    · obtain ⟨t, before, began⟩ := chronicle.began e old
      exact ⟨t, before, began.mono grows⟩
  case found =>
    intro e logged slug l event
    rcases List.mem_cons.mp logged with rfl | old
    · cases event
    · exact chronicle.found e old slug l event
  case inserted =>
    intro e logged fields l event
    rcases List.mem_cons.mp logged with rfl | old
    · cases event
    · exact chronicle.inserted e old fields l event
  case updated =>
    intro e logged slug userId url m event
    rcases List.mem_cons.mp logged with rfl | old
    · cases event
    · exact chronicle.updated e old slug userId url m event
  case entries =>
    intro slug e stored
    obtain ⟨j, t₀, t₁, m, cached, lives⟩ := chronicle.entries slug e stored
    exact ⟨j, t₀, t₁, m, cached.mono grows, lives⟩
  case reads =>
    intro e logged slug url event
    rcases List.mem_cons.mp logged with rfl | old
    · cases event
    · obtain ⟨j, t₀, t₁, m, cached, fresh⟩ := chronicle.reads e old slug url event
      exact ⟨j, t₀, t₁, m, cached.mono grows, fresh⟩

/-- Time moves on and nothing else does. -/
theorem Chronicle.ticked (chronicle : Chronicle σ) (ms : Nat) :
    Chronicle (σ.ticked (V := mikrouli P) ms) := by
  have grows : ∀ e ∈ σ.log, e ∈ (σ.ticked (V := mikrouli P) ms).log := fun _ => id
  constructor
  case past => exact fun e logged => (chronicle.past e logged).trans (Nat.le_add_right _ _)
  case ordered => exact chronicle.ordered
  case began => exact chronicle.began
  case found => exact chronicle.found
  case inserted => exact chronicle.inserted
  case updated => exact chronicle.updated
  case entries =>
    intro slug e stored
    obtain ⟨j, t₀, t₁, m, cached, lives⟩ := chronicle.entries slug e stored
    exact ⟨j, t₀, t₁, m, cached.mono grows, lives⟩
  case reads =>
    intro e logged slug url event
    obtain ⟨j, t₀, t₁, m, cached, fresh⟩ := chronicle.reads e logged slug url event
    exact ⟨j, t₀, t₁, m, cached.mono grows, fresh⟩

theorem chronicle_initial {w₀ : World}
    (cold : ∀ slug, w₀.redis (LinkCacheService.cacheKey slug) = none) :
    Chronicle (P := P) ⟨w₀, []⟩ := by
  constructor
  case entries =>
    intro slug e stored
    change w₀.redis _ = some e at stored
    rw [cold] at stored
    cases stored
  case ordered => exact List.Pairwise.nil
  all_goals
    intro e logged
    cases logged

theorem Chronicle.reach {w₀ : World} {c : Config (mikrouli P)}
    (cold : ∀ slug, w₀.redis (LinkCacheService.cacheKey slug) = none)
    (reach : Reach (cachesInTime P) (initial w₀) c) : Chronicle c.shared := by
  induction reach with
  | refl => exact chronicle_initial cold
  | tail reach step chronicle =>
    cases step with
    | start r _ => exact chronicle.started _ r
    | env ms _ => exact chronicle.ticked ms
    | @call σ ts i r cmd k ch res w thread returned allowed =>
      have asked := (asked_iff_started reach i r).mp ⟨_, thread⟩
      have step : LinkStep (σ.own i) cmd := (links_holds reach).pre ⟨r, k, thread⟩
      exact chronicle.called ⟨r, asked⟩ step returned allowed

end Chronicle

/-! ### Answers -/

/-- The last thing thread `i` did. -/
def latest (σ : Shared (mikrouli P)) (i : Nat) : Option (Entry (mikrouli P)) :=
  σ.log.find? fun e => decide (e.thread = i)

section Answers

variable {σ : Shared (mikrouli P)} {i : Nat}

theorem latest_of_own {e : Event (mikrouli P)} {es : Events P} (own : σ.own i = e :: es) :
    ∃ a ∈ σ.log, latest σ i = some a ∧ a.thread = i ∧ a.event = e := by
  cases last : latest σ i with
  | none =>
    have idle : ∀ a ∈ σ.log, a.thread ≠ i := by simpa [latest] using last
    obtain ⟨a, logged, mine, -⟩ := Shared.mem_log_of_mem_own (own ▸ List.mem_cons_self)
    exact absurd mine (idle a logged)
  | some a =>
    -- the first of the thread's entries is the first of its events
    have first : (σ.log.filter fun e => decide (e.thread = i)).head? = some a := by
      rw [List.head?_filter]
      exact last
    have head := congrArg List.head? own
    rw [Shared.own, List.head?_map, first] at head
    refine ⟨a, List.mem_of_find?_eq_some last, rfl, ?_, Option.some.inj head⟩
    simpa using List.find?_some last

/-- Nothing a thread did is later than what it did last. -/
theorem Chronicle.le_latest (chronicle : Chronicle σ) {a m : Entry (mikrouli P)}
    (last : latest σ i = some a) (logged : m ∈ σ.log) (mine : m.thread = i) :
    m.world.now ≤ a.world.now := by
  obtain ⟨-, newer, older, split, others⟩ := List.find?_eq_some_iff_append.mp last
  rw [split, List.mem_append, List.mem_cons] at logged
  -- newer than the latest is nothing of the thread's own; older is earlier
  rcases logged with new | rfl | old
  · have other := others m new
    simp [mine] at other
  · exact le_rfl
  · have ordered := chronicle.ordered
    rw [split, List.pairwise_append, List.pairwise_cons] at ordered
    exact ordered.2.1.1 m old

end Answers

/-- The moment `m` an answer of thread `i`, last active at `a`, goes back to: the thread's own read
of the row, or the one behind the entry that request `j` cached at `t₁`. -/
def GoesBack (σ : Shared (mikrouli P)) (slug url : String) (i : Nat) (a m : Entry (mikrouli P))
    (j t₀ t₁ : Nat) : Prop :=
  Cached σ slug url j t₀ t₁ m ∨ (j = i ∧ t₁ = a.world.now ∧ m.thread = i ∧ BeganAt σ i t₀)

/-- From a cold cache, whichever Redis commands fail, as long as rows are cached in time: a resolve
only fails when the database does, and the destination it answers with was in the database for
the slug at a moment no more than a day and the duration of the request that cached it (its own,
if it read the row itself) before the answer. -/
theorem staleness_bounded {w₀ : World} {c : Config (mikrouli P)} {i : Nat} {slug : String}
    (cold : ∀ slug, w₀.redis (LinkCacheService.cacheKey slug) = none)
    (reach : Reach (cachesInTime P) (initial w₀) c) :
    (∀ u, c.Answered i (.resolve slug) (.resolution (.active u)) →
      ∃ a m j t₀ t₁, latest c.shared i = some a ∧ HeldAt c.shared slug u m ∧
        GoesBack c.shared slug u i a m j t₀ t₁ ∧
        m.world.now ≤ a.world.now ∧ t₀ ≤ t₁ ∧
        a.world.now < m.world.now + 1000 * 86400 + (t₁ - t₀)) ∧
    ∀ e, c.threads[i]? = some (.resolve slug, .fail e) →
      e = .queryFailed ∧ .call (.findLink slug) (.error e) ∈ c.shared.own i := by
  have chronicle : Chronicle c.shared := .reach cold reach
  constructor
  · intro u answered
    rcases ((links_holds reach).history_ok answered).resolution slug rfl with
      ⟨es, own⟩ | ⟨l, found, rfl⟩
    · obtain ⟨a, logged, last, -, event⟩ := latest_of_own own
      obtain ⟨j, t₀, t₁, m, cached, before, fresh⟩ := chronicle.reads a logged slug u event
      have held := cached.before.trans before
      have after := cached.after
      have wrote := cached.before
      refine ⟨a, m, j, t₀, t₁, last, cached.held, .inl cached, held, after.trans wrote, ?_⟩
      simp only [CACHE_TTL_CAP_SECONDS] at fresh
      omega
    -- the thread read the row itself
    · obtain ⟨m, logged, mine, event⟩ := Shared.mem_log_of_mem_own found
      obtain ⟨t₀, after, began⟩ := chronicle.began m logged
      rw [mine] at began
      obtain ⟨e, es, own⟩ := List.exists_cons_of_ne_nil (List.ne_nil_of_mem found)
      obtain ⟨a, -, last, -⟩ := latest_of_own own
      have before := chronicle.le_latest last logged mine
      refine ⟨a, m, i, t₀, a.world.now, last, ⟨logged, l, ?_, rfl⟩, .inr ⟨rfl, rfl, mine, began⟩,
        before, after.trans before, ?_⟩
      · exact chronicle.found m logged slug l event
      · omega
  · intro e failed
    exact ((links_holds reach).history_error failed).resolution slug rfl

/-! ### A concrete run -/

/-- Decides that every link a thread has met stays for good when it caches one, and that nothing
is patched. -/
def isCachesInTime (σ : Shared (mikrouli P)) : Act (mikrouli P) → Bool
  | .call i (.redisSet _ _ _) _ => (σ.own i).all fun e =>
      match e with
      | .call (.insertLinkWithOutbox _) (.ok (l : Link)) => decide (l.expiresAt = none)
      | .call (.findLink _) _ => false
      | _ => true
  | .call _ (.updateLink _ _ _) _ => false
  | _ => true

theorem cachesInTime_of_isCachesInTime (σ : Shared (mikrouli P)) (a : Act (mikrouli P))
    (test : isCachesInTime σ a = true) : cachesInTime P σ a := by
  cases a with
  | call i c ch =>
    cases c with
    | redisSet key value ex =>
      intro slug l t holds _ x expires
      have all := List.all_eq_true.mp test
      cases holds with
      | created inserted =>
        have stays := of_decide_eq_true (all _ inserted)
        rw [stays] at expires
        cases expires
      | edited found updated => cases all _ found
      | read _ found => cases all _ found
    | updateLink slug userId url => cases test
    | _ => trivial
  | _ => trivial

/-- A guest's link is created and, a minute later, resolved from the cache. -/
theorem staleness_bounded_cached :
    ∃ c : Config (mikrouli Platform.plain), ∃ a m j t₀ t₁, latest c.shared 1 = some a ∧
      HeldAt c.shared "abcdef" "https://ab.cd" m ∧
      GoesBack c.shared "abcdef" "https://ab.cd" 1 a m j t₀ t₁ ∧
      m.world.now ≤ a.world.now ∧ t₀ ≤ t₁ ∧
      a.world.now < m.world.now + 1000 * 86400 + (t₁ - t₀) := by
  obtain ⟨c, reach, passed⟩ := exists_reach_of_play cachesInTime_of_isCachesInTime
    (initial (V := mikrouli Platform.plain) (World.empty 5000))
    [.start (.createLink ⟨"a", true⟩ "https://ab.cd" (some none)), .run 0 { draw := "abcdef" },
     .run 0 {}, .run 0 {}, .env 60000, .start (.resolve "abcdef"), .run 1 {}]
    (fun c => decide (c.answer? 1 = some (.resolve "abcdef", .resolution (.active "https://ab.cd"))))
    (by decide +kernel)
  have answered := answered_of_answer? (of_decide_eq_true passed)
  exact ⟨c, (staleness_bounded (fun _ => rfl) reach).1 "https://ab.cd" answered⟩

end Mikrouli
