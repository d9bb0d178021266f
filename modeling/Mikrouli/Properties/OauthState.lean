import Mikrouli.Model.Commands
import Mikrouli.Model.Footprint
import Mikrouli.Model.GithubOauth

/-! The state tokens of sign-in through GitHub, in any interleaving: who drew them, when their
entries were stored and who consumed them. -/

namespace Mikrouli

open Async Store GithubStateStore

variable {P : Platform}

/-! ### Events -/

abbrev OauthEvents (P : Platform) := List (Event (signingIn P))

def mints (s : String) : Event (signingIn P) → Bool
  | .call .randomState (.ok (s' : String)) => decide (s' = s)
  | _ => false

/-- The entry of the state was stored. -/
def keeps (s : String) : Event (signingIn P) → Bool
  | .call (.redisSet key _ _) (.ok _) => decide (key = stateKey s)
  | _ => false

/-- The entry of the state was found and deleted. -/
def accepts (s : String) : Event (signingIn P) → Bool
  | .call (.redisGetDel key) (.ok (some _)) => decide (key = stateKey s)
  | _ => false

/-- Redis failed to answer. -/
def misses : Event (signingIn P) → Bool
  | .call (.redisGetDel _) (.error _) => true
  | _ => false

/-- The sign-in the thread began, and the browser it began it for. -/
def begins (browser : String) : Event (signingIn P) → Bool
  | .start (.store b) => decide (b = browser)
  | _ => false

/-- The browser and the state the thread was called back with. -/
def calledBack (browser s : String) : Event (signingIn P) → Bool
  | .start (.verify b s') => decide (b = browser ∧ s' = s)
  | .start (.callback b s' _) => decide (b = browser ∧ s' = s)
  | _ => false

/-- How often the state has been accepted. -/
def acceptances (s : String) (σ : Shared (signingIn P)) : Nat :=
  σ.log.countP fun e => accepts s e.event

/-- A sign-in of the browser drew the state. -/
def MintedFor (browser s : String) (σ : Shared (signingIn P)) : Prop :=
  ∃ i, (σ.own i).any (begins browser) = true ∧ (σ.own i).any (mints s) = true

theorem stateKey_inj {s s' : String} (same : stateKey s = stateKey s') : s = s' := by
  simpa [stateKey] using same

theorem stateKey_ne_cacheKey (s slug : String) : stateKey s ≠ LinkCacheService.cacheKey slug := by
  intro same
  have chars := congrArg String.toList same
  simp [stateKey, OAUTH_STATE_KEY_PREFIX, LinkCacheService.cacheKey, CACHE_PREFIX] at chars

theorem stateKey_ne_buildRevocationKey (s family : String) :
    stateKey s ≠ buildRevocationKey family := by
  intro same
  have chars := congrArg String.toList same
  simp [stateKey, OAUTH_STATE_KEY_PREFIX, buildRevocationKey, REVOCATION_KEY_PREFIX] at chars

section Events

variable {s : String} {c : Cmd} {res : Except AppError c.Res}

theorem cmd_of_mints (mint : mints (P := P) s (.call c res) = true) : c = .randomState := by
  unfold mints at mint
  split at mint
  next same => cases same; rfl
  · cases mint

theorem cmd_of_keeps (keep : keeps (P := P) s (.call c res) = true) :
    ∃ v ex, c = .redisSet (stateKey s) v ex := by
  unfold keeps at keep
  split at keep
  next key v ex a same =>
    cases same
    rw [of_decide_eq_true keep]
    exact ⟨v, ex, rfl⟩
  · cases keep

theorem cmd_of_accepts (accept : accepts (P := P) s (.call c res) = true) :
    c = .redisGetDel (stateKey s) := by
  unfold accepts at accept
  split at accept
  next key v same =>
    cases same
    rw [of_decide_eq_true accept]
  · cases accept

theorem cmd_of_misses (miss : misses (P := P) (.call c res) = true) : ∃ key, c = .redisGetDel key := by
  unfold misses at miss
  split at miss
  next key e same => cases same; exact ⟨key, rfl⟩
  · cases miss

end Events

/-! ### The ledger -/

/-- When the entry of the state was stored. -/
def KeptAt (s : String) (now : Nat) (σ : Shared (signingIn P)) : Prop :=
  ∃ e ∈ σ.log, keeps s e.event = true ∧ e.world.now = now

/-- Each state is drawn by one thread, a sign-in, which alone stores its entry. An entry that is
there has not been accepted yet and ends ten minutes after it was stored. -/
structure StateLedger (σ : Shared (signingIn P)) : Prop where
  past : ∀ e ∈ σ.log, e.world.now ≤ σ.world.now
  drawn : ∀ i s, (σ.own i).any (mints s) = true → s ∈ σ.world.drawn
  single : ∀ i j s, (σ.own i).any (mints s) = true → (σ.own j).any (mints s) = true → i = j
  minter : ∀ i s, (σ.own i).any (mints s) = true → ∃ b, (σ.own i).any (begins b) = true
  kept : ∀ e ∈ σ.log, ∀ s, keeps s e.event = true → (σ.own e.thread).any (mints s) = true
  entries : ∀ s e, σ.world.redis (stateKey s) = some e → acceptances s σ = 0 ∧
    ∃ t, KeptAt s t σ ∧ e.deadline = some (t + 1000 * OAUTH_STATE_TTL_SECONDS)
  once : ∀ s, acceptances s σ ≤ 1
  timely : ∀ e ∈ σ.log, ∀ s, accepts s e.event = true → ∃ t, KeptAt s t σ ∧
    t ≤ e.world.now ∧ e.world.now < t + 1000 * OAUTH_STATE_TTL_SECONDS

/-- What a thread has done before it issues a command. -/
def Orderly (P : Platform) (i : Nat) (c : Cmd) (σ : Shared (signingIn P)) : Prop :=
  match c with
  | .randomState => ∃ b, (σ.own i).any (begins b) = true
  | .redisSet key _ ex => ∀ s, key = stateKey s → ex = some OAUTH_STATE_TTL_SECONDS ∧
      (σ.own i).any (mints s) = true ∧ (σ.own i).any (keeps s) = false
  | .redisGetDel key => ∃ b s, key = stateKey s ∧ (σ.own i).any (calledBack b s) = true
  | _ => True

section Ledger

variable {σ : Shared (signingIn P)} {i : Nat} {c : Cmd} {ch : Choice} {w : World}
  {res : Except AppError c.Res} {s : String}

theorem KeptAt.called {t : Nat} : KeptAt s t σ → KeptAt s t (σ.called i c res w) := by
  rintro ⟨e, logged, keep⟩
  exact ⟨e, List.mem_cons_of_mem _ logged, keep⟩

theorem any_own_of_logged {e : Entry (signingIn P)} {p : Event (signingIn P) → Bool}
    (logged : e ∈ σ.log) (holds : p e.event = true) : (σ.own e.thread).any p = true := by
  refine List.any_eq_true.mpr ⟨e.event, ?_, holds⟩
  exact List.mem_map.mpr ⟨e, List.mem_filter.mpr ⟨logged, decide_eq_true rfl⟩, rfl⟩

theorem acceptances_called :
    acceptances s (σ.called i c res w) =
      acceptances s σ + if accepts (P := P) s (.call c res) = true then 1 else 0 := by
  simp only [acceptances, Shared.called, List.countP_cons]

/-- A state is only accepted off its entry. -/
theorem live_of_accepts (accept : accepts (P := P) s (.call c res) = true)
    (returned : exec P i c ch σ.world = some (res, w)) :
    (∃ e, σ.world.redis (stateKey s) = some e ∧ e.liveAt σ.world.now = true) ∧
      w.redis = σ.world.redis.del (stateKey s) := by
  have cmd := cmd_of_accepts accept
  subst cmd
  rcases exec_redisGetDel returned with ⟨-, rfl, -⟩ | ⟨-, rfl, rfl⟩
  · cases accept
  · refine ⟨?_, rfl⟩
    unfold accepts at accept
    split at accept
    next key v same =>
      simp only [Event.call.injEq] at same
      obtain ⟨keys, found⟩ := same
      have found := eq_of_heq found
      simp only [Except.ok.injEq] at found
      obtain ⟨e, entry, live, -⟩ := Expiring.get_eq_some.mp found
      exact ⟨e, entry, live⟩
    · cases accept

/-- An entry under a state's key was there before, or the command has just stored it. -/
theorem state_entry_called {e : Stamped String} (orderly : Orderly P i c σ)
    (returned : exec P i c ch σ.world = some (res, w))
    (after : w.redis (stateKey s) = some e) :
    (σ.world.redis (stateKey s) = some e ∧ accepts (P := P) s (.call c res) = false) ∨
      ((σ.own i).any (mints s) = true ∧ (σ.own i).any (keeps s) = false ∧
        keeps (P := P) s (.call c res) = true ∧
        e.deadline = some (σ.world.now + 1000 * OAUTH_STATE_TTL_SECONDS)) := by
  have unaccepted : accepts (P := P) s (.call c res) = false := by
    by_contra accept
    rw [Bool.not_eq_false] at accept
    -- an accepted state has lost its entry in the same command
    obtain ⟨-, deleted⟩ := live_of_accepts accept returned
    rw [deleted, Expiring.del_self] at after
    cases after
  cases c with
  | redisSet key v ex =>
    rcases exec_redisSet returned with ⟨-, -, rfl⟩ | ⟨-, rfl, rfl⟩
    · exact .inl ⟨after, unaccepted⟩
    · by_cases same : stateKey s = key
      -- under a state's key only its minter stores, once and for ten minutes
      · obtain ⟨rfl, minted, first⟩ := orderly s same.symm
        subst same
        simp only [Expiring.set_self, Option.some.injEq] at after
        subst after
        exact .inr ⟨minted, first, by simp [keeps], rfl⟩
      · exact .inl ⟨(Expiring.of_set_eq_some after).resolve_left same, unaccepted⟩
  | redisDel key =>
    rcases exec_redisDel returned with ⟨-, -, rfl⟩ | ⟨-, -, rfl⟩
    · exact .inl ⟨after, unaccepted⟩
    · exact .inl ⟨Expiring.of_del_eq_some after, unaccepted⟩
  | redisGetDel key =>
    rcases exec_redisGetDel returned with ⟨-, -, rfl⟩ | ⟨-, -, rfl⟩
    · exact .inl ⟨after, unaccepted⟩
    · exact .inl ⟨Expiring.of_del_eq_some after, unaccepted⟩
  | _ =>
    rw [(exec_frame returned).redis rfl] at after
    exact .inl ⟨after, unaccepted⟩

theorem mints_called {j : Nat}
    (returned : exec P i c ch σ.world = some (res, w))
    (after : ((σ.called i c res w).own j).any (mints s) = true) :
    (j = i ∧ mints (P := P) s (.call c res) = true ∧ s ∉ σ.world.drawn ∧ s ∈ w.drawn) ∨
      (σ.own j).any (mints s) = true := by
  rcases Shared.any_called.mp after with ⟨rfl, mint⟩ | before
  · refine .inl ⟨rfl, mint, ?_⟩
    have cmd := cmd_of_mints mint
    subst cmd
    obtain ⟨rfl, -, unused, rfl⟩ := exec_randomState returned
    have drawn : ch.draw = s := by simpa [mints] using mint
    rw [drawn] at unused
    exact ⟨unused, by simp [drawn]⟩
  · exact .inr before

/-- No state has been accepted whose entry its minter has yet to store. -/
theorem StateLedger.acceptances_eq_zero (ledger : StateLedger σ)
    (minted : (σ.own i).any (mints s) = true) (first : (σ.own i).any (keeps s) = false) :
    acceptances s σ = 0 := by
  refine List.countP_eq_zero.mpr fun e logged accept => ?_
  obtain ⟨t, ⟨m, earlier, keep, -⟩, -, -⟩ := ledger.timely e logged s accept
  -- whoever stored the accepted entry drew the state, and so is this thread
  have same := ledger.single _ _ s (ledger.kept m earlier s keep) minted
  have did := any_own_of_logged earlier keep
  rw [same, first] at did
  cases did

theorem StateLedger.called (ledger : StateLedger σ) (orderly : Orderly P i c σ)
    (returned : exec P i c ch σ.world = some (res, w)) : StateLedger (σ.called i c res w) := by
  have clock := (exec_frame returned).now
  have logged {e : Entry (signingIn P)} (member : e ∈ (σ.called i c res w).log) :
      e = ⟨i, .call c res, w⟩ ∨ e ∈ σ.log := List.mem_cons.mp member
  constructor
  case past =>
    intro e member
    rw [Shared.called_world, clock]
    rcases logged member with rfl | old
    · exact clock.le
    · exact ledger.past e old
  case drawn =>
    intro j s after
    rcases mints_called returned after with ⟨-, -, -, new⟩ | before
    · exact new
    · exact (exec_frame returned).drawn (ledger.drawn j s before)
  case single =>
    intro j k s first second
    rcases mints_called returned first with ⟨rfl, -, unused, -⟩ | before
    · rcases mints_called returned second with ⟨rfl, -⟩ | earlier
      · rfl
      · exact absurd (ledger.drawn k s earlier) unused
    · rcases mints_called returned second with ⟨rfl, -, unused, -⟩ | earlier
      · exact absurd (ledger.drawn j s before) unused
      · exact ledger.single j k s before earlier
  case minter =>
    intro j s after
    have began : ∃ b, (σ.own j).any (begins b) = true := by
      rcases mints_called returned after with ⟨rfl, mint, -⟩ | before
      · have cmd := cmd_of_mints mint
        subst cmd
        exact orderly
      · exact ledger.minter j s before
    obtain ⟨b, did⟩ := began
    exact ⟨b, Shared.any_called.mpr (.inr did)⟩
  case kept =>
    intro e member s keep
    refine Shared.any_called.mpr (.inr ?_)
    rcases logged member with rfl | old
    · obtain ⟨v, ex, rfl⟩ := cmd_of_keeps keep
      exact (orderly s rfl).2.1
    · exact ledger.kept e old s keep
  case entries =>
    intro s e after
    rw [acceptances_called]
    rcases state_entry_called orderly returned after with ⟨before, not⟩ | ⟨minted, first, keep, ends⟩
    · obtain ⟨none, t, keptAt, ends⟩ := ledger.entries s e before
      exact ⟨by simp [none, not], t, keptAt.called, ends⟩
    · have not : accepts (P := P) s (.call c res) = false := by
        obtain ⟨v, ex, rfl⟩ := cmd_of_keeps keep
        rfl
      refine ⟨by simp [ledger.acceptances_eq_zero minted first, not], σ.world.now, ?_, ends⟩
      exact ⟨⟨i, .call c res, w⟩, List.mem_cons_self, keep, clock⟩
  case once =>
    intro s
    rw [acceptances_called]
    split
    next accept =>
      obtain ⟨⟨e, entry, -⟩, -⟩ := live_of_accepts accept returned
      -- the entry is there, so the state has not been accepted before
      have none := (ledger.entries s e entry).1
      omega
    next => exact ledger.once s
  case timely =>
    intro e member s accept
    rcases logged member with rfl | old
    · obtain ⟨⟨e, entry, live⟩, -⟩ := live_of_accepts accept returned
      obtain ⟨-, t, keptAt, ends⟩ := ledger.entries s e entry
      obtain ⟨m, earlier, keep, rfl⟩ := keptAt
      refine ⟨_, ⟨m, List.mem_cons_of_mem _ earlier, keep, rfl⟩, ?_, ?_⟩
      · exact (ledger.past m earlier).trans clock.ge
      -- it is still live, so its ten minutes are not over
      · exact clock.trans_lt (Stamped.lt_of_liveAt ends live)
    · obtain ⟨t, keptAt, before, within⟩ := ledger.timely e old s accept
      exact ⟨t, keptAt.called, before, within⟩

theorem StateLedger.ticked (ledger : StateLedger σ) (ms : Nat) : StateLedger (σ.ticked ms) where
  past e member := (ledger.past e member).trans (Nat.le_add_right _ _)
  drawn := ledger.drawn
  single := ledger.single
  minter := ledger.minter
  kept := ledger.kept
  entries := ledger.entries
  once := ledger.once
  timely := ledger.timely

theorem StateLedger.started (ledger : StateLedger σ) (n : Nat) (r : OauthReq) :
    StateLedger (σ.started n r) := by
  have logged {e : Entry (signingIn P)} (member : e ∈ (σ.started n r).log) :
      e = ⟨n, .start r, σ.world⟩ ∨ e ∈ σ.log := List.mem_cons.mp member
  have minted (j : Nat) (s : String) :
      ((σ.started n r).own j).any (mints s) = (σ.own j).any (mints s) :=
    Shared.any_started σ n j r rfl
  have keptAt {s : String} {t : Nat} : KeptAt s t σ → KeptAt s t (σ.started n r) := by
    rintro ⟨e, logged, keep⟩
    exact ⟨e, List.mem_cons_of_mem _ logged, keep⟩
  have accepted (s : String) : acceptances s (σ.started n r) = acceptances s σ := by
    simp [acceptances, Shared.started, accepts]
  constructor
  case past =>
    intro e member
    rcases logged member with rfl | old
    · exact le_rfl
    · exact ledger.past e old
  case drawn =>
    intro j s after
    rw [minted] at after
    exact ledger.drawn j s after
  case single =>
    intro j k s first second
    rw [minted] at first second
    exact ledger.single j k s first second
  case minter =>
    intro j s after
    rw [minted] at after
    obtain ⟨b, began⟩ := ledger.minter j s after
    refine ⟨b, ?_⟩
    rw [Shared.started_own]
    split
    · rw [List.any_cons, began, Bool.or_true]
    · exact began
  case kept =>
    intro e member s keep
    rw [minted]
    rcases logged member with rfl | old
    · cases keep
    · exact ledger.kept e old s keep
  case entries =>
    intro s e there
    obtain ⟨none, t, kept, ends⟩ := ledger.entries s e there
    exact ⟨(accepted s).trans none, t, keptAt kept, ends⟩
  case once => exact fun s => (accepted s).trans_le (ledger.once s)
  case timely =>
    intro e member s accept
    rcases logged member with rfl | old
    · cases accept
    · obtain ⟨t, kept, within⟩ := ledger.timely e old s accept
      exact ⟨t, keptAt kept, within⟩

theorem StateLedger.acts {C : Contract (signingIn P)} {G : Guard (signingIn P)}
    (orderly : ∀ i c σ, C.Pre i c σ → Orderly P i c σ) {σ σ' : Shared (signingIn P)}
    (acts : C.Acts G σ σ') (ledger : StateLedger σ) : StateLedger σ' := by
  cases acts with
  | start n r _ _ => exact ledger.started n r
  | call pre returned _ => exact ledger.called (orderly _ _ _ pre) returned
  | env ms _ => exact ledger.ticked ms

/-- Where no state is stored yet, the ledger is empty. -/
theorem StateLedger.initial {w₀ : World} (cold : ∀ s, w₀.redis (stateKey s) = none) :
    StateLedger (P := P) ⟨w₀, []⟩ := by
  constructor
  case entries =>
    intro s e there
    rw [cold] at there
    cases there
  case once => exact fun s => Nat.zero_le 1
  case past => exact fun e member => by cases member
  case kept => exact fun e member => by cases member
  case timely => exact fun e member => by cases member
  case drawn => exact fun i s after => by cases after
  case minter => exact fun i s after => by cases after
  case single => exact fun i j s after => by cases after

end Ledger

/-! ### The contract -/

/-- The thread consumed the state, and Redis did not fail it. -/
def consumed (s : String) (es : OauthEvents P) : Bool := es.any (accepts s) && !es.any misses

/-- What an answer says about the state: it was drawn and stored, or it was consumed. -/
def Attested (P : Platform) (i : Nat) (r : OauthReq) (res : Except AppError OauthAns)
    (σ : Shared (signingIn P)) : Prop :=
  match r, res with
  | .store b, .ok (.state s) => (σ.own i).any (begins b) = true ∧
      (σ.own i).any (mints s) = true ∧ (σ.own i).any (keeps s) = true
  | .verify b s, .ok (.verified true) =>
    (σ.own i).any (calledBack b s) = true ∧ consumed s (σ.own i) = true
  | .callback b s _, .ok (.issued _) =>
    (σ.own i).any (calledBack b s) = true ∧ consumed s (σ.own i) = true
  | _, _ => True

def oauth (P : Platform) : Contract (signingIn P) := .ofOwn (fun _ => True) (Orderly P) (Attested P)

section Programs

variable {G : Guard (signingIn P)} {σ : Shared (signingIn P)} {i : Nat} {s : String}

/-- One command, issued in order: what follows may use the thread's own events. -/
theorem oauth_await {c : Cmd} {Q : Except AppError c.Res → Shared (signingIn P) → Prop}
    (orderly : ∀ σ', σ'.own i = σ.own i → Orderly P i c σ')
    (next : ∀ (σ' : Shared (signingIn P)) ch res w, σ'.own i = σ.own i →
      exec P i c ch σ'.world = some (res, w) → Q res (σ'.called i c res w)) :
    Safe (oauth P) G i Q (await c) σ := by
  apply Safe.perform
  intro σ' rely _
  refine ⟨orderly σ' rely, fun ch res w returned _ => ⟨trivial, ?_, ?_⟩⟩
  · exact fun j other => Shared.called_own_of_ne other σ' c res w
  · exact next σ' ch res w rely returned

theorem githubAuthorize_safe {browser : String} (fresh : σ.own i = [.start (.store browser)]) :
    Safe (oauth P) G i (fun r σ' => ∀ s, r = .ok s → (σ'.own i).any (begins browser) = true ∧
      (σ'.own i).any (mints s) = true ∧ (σ'.own i).any (keeps s) = true)
      AuthController.githubAuthorize σ := by
  have began : (σ.own i).any (begins browser) = true := by
    rw [fresh]
    simp [begins]
  apply Safe.tryCatch
  apply Safe.bind
  apply oauth_await
  · intro σ' own
    exact ⟨browser, by rw [own]; exact began⟩
  intro σ₁ ch₁ res₁ w₁ own₁ returned₁
  obtain ⟨rfl, -⟩ := exec_randomState returned₁
  have events₁ : (σ₁.called i .randomState (.ok ch₁.draw) w₁).own i =
      [.call .randomState (.ok ch₁.draw), .start (.store browser)] := by
    rw [Shared.called_own_self, own₁, fresh]
  apply Safe.bind
  change Safe _ _ _ _ (await (.redisSet (stateKey ch₁.draw) "1" (some OAUTH_STATE_TTL_SECONDS))) _
  apply oauth_await
  · intro σ₂ own₂ s same
    cases stateKey_inj same
    rw [own₂, events₁]
    exact ⟨rfl, by simp [mints], rfl⟩
  · intro σ₂ ch₂ res₂ w₂ own₂ _
    cases res₂ with
    | error e => exact fun s answered => by cases answered
    | ok a =>
      rintro s ⟨⟩
      rw [Shared.called_own_self, own₂, events₁]
      simp [begins, mints, keeps]

/-- What is left after a state was looked for: it was found, or the answer is no. -/
theorem verify_safe {browser : String} (asked : (σ.own i).any (calledBack browser s) = true)
    (unmissed : (σ.own i).any misses = false) :
    Safe (oauth P) G i (fun r σ' => r = .ok true →
      (σ'.own i).any (calledBack browser s) = true ∧ consumed s (σ'.own i) = true)
      (GithubStateStore.verify s) σ := by
  apply Safe.bind
  apply oauth_await
  · intro σ' own
    exact ⟨browser, s, rfl, by rw [own]; exact asked⟩
  · intro σ' ch res w own _
    cases res with
    | error e => exact fun answered => by cases answered
    | ok found =>
      cases found with
      | none => exact fun answered => by cases answered
      | some v =>
        intro _
        rw [Shared.called_own_self, own]
        refine ⟨?_, ?_⟩
        · rw [List.any_cons, asked, Bool.or_true]
        · simp [consumed, accepts, misses, unmissed]

/-- The commands of every other request: they neither draw a state nor ask for one. -/
theorem orderly_of_mayIssue {r : Req} {c : Cmd} (issued : r.MayIssue c) : Orderly P i c σ := by
  cases c with
  | randomState => exact issued.elim
  | redisGetDel key => exact issued.elim
  | redisSet key v ex =>
    intro s same
    rcases issued with ⟨-, slug, rfl⟩ | ⟨-, family, rfl⟩
    · exact absurd same.symm (stateKey_ne_cacheKey s slug)
    · exact absurd same.symm (stateKey_ne_buildRevocationKey s family)
  | _ => trivial

/-- A request that has nothing to do with states leaves what its thread has done standing. -/
theorem oauth_other {α : Type} {r : Req} {p : Prog α} {K : OauthEvents P → Prop}
    {Q : Except AppError α → Shared (signingIn P) → Prop} (only : p.Only r.MayIssue)
    (stands : ∀ es c res, r.MayIssue c → K es → K (.call c res :: es))
    (post : ∀ res σ, K (σ.own i) → Q res σ) (start : K (σ.own i)) :
    Safe (oauth P) G i Q p σ := by
  refine Safe.of_only (K := fun σ => K (σ.own i)) only ?_ ?_ post start
  · intro σ σ' rely holds
    have same : σ'.own i = σ.own i := rely
    rw [same]
    exact holds
  · intro c σ issued _ holds
    refine ⟨orderly_of_mayIssue issued, fun ch res w _ _ => ⟨trivial, ?_, ?_⟩⟩
    · exact fun j other => Shared.called_own_of_ne other σ c res w
    · rw [Shared.called_own_self]
      exact stands _ c res issued holds

theorem githubCallback_safe {browser : String} {exchange : Option GithubProfile}
    (fresh : σ.own i = [.start (.callback browser s exchange)]) :
    Safe (oauth P) G i (fun r σ' => ∀ tokens, r = .ok tokens →
      (σ'.own i).any (calledBack browser s) = true ∧ consumed s (σ'.own i) = true)
      (AuthController.githubCallback P s exchange) σ := by
  have asked : (σ.own i).any (calledBack browser s) = true := by
    rw [fresh]
    simp [calledBack]
  have unmissed : (σ.own i).any misses = false := by
    rw [fresh]
    rfl
  apply Safe.bind
  apply Safe.tryCatch
  refine (verify_safe asked unmissed).mono fun r σ' verified => ?_
  cases r with
  | error e => exact fun tokens answered => by cases answered
  | ok ok =>
    cases ok with
    | false => exact fun tokens answered => by cases answered
    | true =>
      simp only [Bool.true_eq_false, ↓reduceIte]
      cases exchange.bind validateProfile with
      | none => exact fun tokens answered => by cases answered
      | some identity =>
        -- signing in issues no command on states, so what was consumed stays consumed
        have only : Prog.Only (Req.loginWithGithub identity).MayIssue
            (AuthService.loginWithGithub P identity) :=
          (serve_only P (.loginWithGithub identity)).of_bind
        refine oauth_other (K := fun es => es.any (calledBack browser s) = true ∧
          consumed s es = true) only ?_ ?_ (verified rfl)
        · rintro es c res issued ⟨called, did⟩
          have unmissing : misses (P := P) (.call c res) = false := by
            by_contra miss
            rw [Bool.not_eq_false] at miss
            obtain ⟨key, rfl⟩ := cmd_of_misses miss
            exact issued
          simp only [consumed, Bool.and_eq_true, Bool.not_eq_true', List.any_cons, Bool.or_eq_true,
            Bool.or_eq_false_iff] at did ⊢
          exact ⟨.inr called, .inr did.1, unmissing, did.2⟩
        · exact fun res σ' kept tokens _ => kept

theorem serveOauth_safe {r : OauthReq} (fresh : σ.own i = [.start r]) :
    Safe (oauth P) G i (Attested P i r) (serveOauth P r) σ := by
  cases r with
  | store browser =>
    apply Safe.map
    refine (githubAuthorize_safe fresh).mono fun r σ' post => ?_
    cases r with
    | error e => trivial
    | ok s => exact post s rfl
  | verify browser s =>
    have asked : (σ.own i).any (calledBack browser s) = true := by
      rw [fresh]
      simp [calledBack]
    have unmissed : (σ.own i).any misses = false := by
      rw [fresh]
      rfl
    apply Safe.map
    refine (verify_safe asked unmissed).mono fun r σ' post => ?_
    cases r with
    | error e => trivial
    | ok ok =>
      cases ok with
      | false => trivial
      | true => exact post rfl
  | callback browser s exchange =>
    apply Safe.map
    refine (githubCallback_safe fresh).mono fun r σ' post => ?_
    cases r with
    | error e => trivial
    | ok tokens => exact post tokens rfl
  | other r =>
    apply Safe.map
    exact oauth_other (K := fun _ => True) (serve_only P r) (fun _ _ _ _ _ => trivial)
      (fun res σ' _ => by cases res <;> trivial) trivial

theorem oauth_sound : (oauth P).Sound G := by
  constructor
  · exact fun σ ms _ _ => ⟨trivial, fun _ => rfl⟩
  · intro σ n r _ fresh _
    refine ⟨trivial, fun j other => Shared.started_own_of_ne other σ r, ?_⟩
    apply serveOauth_safe
    rw [Shared.started_own_self, fresh]

theorem oauth_initial (w₀ : World) : (oauth P).Holds G (initial w₀) :=
  ⟨trivial, by simp [initial], by simp [initial]⟩

theorem stateLedger_of_reach {w₀ : World} (cold : ∀ s, w₀.redis (stateKey s) = none)
    {c : Config (signingIn P)} (reach : Reach G (initial w₀) c) : StateLedger c.shared :=
  (oauth_initial w₀).invariant oauth_sound
    (fun _ _ _ acts ledger => ledger.acts (fun _ _ _ pre => pre) acts)
    (StateLedger.initial cold) reach

end Programs

/-! ### A state is accepted once, and in time -/

/-- Thread `i` let the browser through with the state. -/
def LetThrough (c : Config (signingIn P)) (i : Nat) (browser s : String) : Prop :=
  c.Answered i (.verify browser s) (.verified true) ∨
    ∃ exchange tokens, c.Answered i (.callback browser s exchange) (.issued tokens)

section Results

variable {G : Guard (signingIn P)} {w₀ : World} {c : Config (signingIn P)} {i j : Nat}
  {b b' s : String}

theorem attested_of_letThrough (reach : Reach G (initial w₀) c) (through : LetThrough c i b s) :
    (c.shared.own i).any (calledBack b s) = true ∧ consumed s (c.shared.own i) = true := by
  have holds := (oauth_initial w₀).reach oauth_sound reach
  rcases through with answered | ⟨exchange, tokens, answered⟩
  · obtain ⟨σ, rely, post⟩ := holds.post_ok answered
    have same : c.shared.own i = σ.own i := rely
    rw [same]
    exact post
  · obtain ⟨σ, rely, post⟩ := holds.post_ok answered
    have same : c.shared.own i = σ.own i := rely
    rw [same]
    exact post

theorem accepted_of_consumed {σ : Shared (signingIn P)} (did : consumed s (σ.own i) = true) :
    ∃ e ∈ σ.log, e.thread = i ∧ accepts s e.event = true := by
  simp only [consumed, Bool.and_eq_true] at did
  obtain ⟨event, member, accept⟩ := List.any_eq_true.mp did.1
  obtain ⟨e, logged, rfl, rfl⟩ := Shared.mem_log_of_mem_own member
  exact ⟨e, logged, rfl, accept⟩

/-- A state that has been accepted at most once was consumed by at most one thread. -/
theorem eq_of_consumed {σ : Shared (signingIn P)} (once : acceptances s σ ≤ 1)
    (first : consumed s (σ.own i) = true) (second : consumed s (σ.own j) = true) : i = j := by
  obtain ⟨e, logged, rfl, accept⟩ := accepted_of_consumed first
  obtain ⟨e', logged', rfl, accept'⟩ := accepted_of_consumed second
  rw [acceptances, List.countP_eq_length_filter] at once
  have member : e ∈ σ.log.filter fun e => accepts s e.event := List.mem_filter.mpr ⟨logged, accept⟩
  have member' : e' ∈ σ.log.filter fun e => accepts s e.event :=
    List.mem_filter.mpr ⟨logged', accept'⟩
  generalize σ.log.filter (fun e => accepts s e.event) = found at once member member'
  match found with
  | [only] =>
    rw [List.mem_singleton.mp member, List.mem_singleton.mp member']
  | _ :: _ :: _ =>
    simp only [List.length_cons] at once
    omega

/-- In any run, whatever is presented and whenever Redis fails: a state is accepted at most once,
within ten minutes of the moment the thread that drew it stored it, and only when Redis answered;
and no text presented as a state names a key of another namespace. -/
theorem oauth_state_single_use {w₀ : World} (cold : ∀ s, w₀.redis (stateKey s) = none)
    {c : Config (signingIn P)} (reach : Reach anyStep (initial w₀) c) :
    (∀ s, acceptances s c.shared ≤ 1) ∧
    (∀ i j b b' s, LetThrough c i b s → LetThrough c j b' s → i = j) ∧
    (∀ e ∈ c.shared.log, ∀ s, accepts s e.event = true →
      ∃ m ∈ c.shared.log, (c.shared.own m.thread).any (mints s) = true ∧
        keeps s m.event = true ∧ m.world.now ≤ e.world.now ∧
        e.world.now < m.world.now + 600000) ∧
    (∀ i b s, LetThrough c i b s →
      (∃ e ∈ c.shared.log, e.thread = i ∧ accepts s e.event = true) ∧
        (c.shared.own i).any misses = false) ∧
    ∀ s, Prog.Only (fun cmd : Cmd => ∃ key, cmd = .redisGetDel key ∧
      ∀ x, key ≠ CACHE_PREFIX ++ x ∧ key ≠ REVOCATION_KEY_PREFIX ++ x)
      (GithubStateStore.verify s) := by
  have ledger := stateLedger_of_reach cold reach
  refine ⟨ledger.once, ?_, ?_, ?_, ?_⟩
  · intro i j b b' s first second
    exact eq_of_consumed (ledger.once s) (attested_of_letThrough reach first).2
      (attested_of_letThrough reach second).2
  · intro e logged s accept
    obtain ⟨t, ⟨m, earlier, keep, rfl⟩, before, within⟩ := ledger.timely e logged s accept
    exact ⟨m, earlier, ledger.kept m earlier s keep, keep, before, within⟩
  · intro i b s through
    have did := (attested_of_letThrough reach through).2
    refine ⟨accepted_of_consumed did, ?_⟩
    simpa using (Bool.and_eq_true_iff.mp did).2
  · intro s
    refine .bind (.perform ⟨stateKey s, rfl, fun x => ⟨?_, ?_⟩⟩) fun found => ?_
    · exact stateKey_ne_cacheKey s x
    · exact stateKey_ne_buildRevocationKey s x
    · cases found <;> trivial

end Results

/-- A state of 64 hexadecimal digits. -/
def stateOfZeros : String := String.ofList (List.replicate 64 '0')

theorem oauth_state_single_use_twice :
    ∃ c : Config (signingIn Platform.plain),
      c.Answered 2 (.verify "a" stateOfZeros) (.verified false) ∧
        acceptances stateOfZeros c.shared ≤ 1 := by
  obtain ⟨c, reach, passed⟩ := exists_reach_of_play anyStep_of_anyReady
    (initial (V := signingIn Platform.plain) (World.empty 5000))
    [.start (.store "a"), .run 0 { draw := stateOfZeros }, .run 0 {},
     .start (.verify "a" stateOfZeros), .start (.verify "a" stateOfZeros), .run 1 {}, .run 2 {}]
    (fun c => decide (c.answer? 2 = some (.verify "a" stateOfZeros, .verified false)))
    (by decide +kernel)
  have answer := answered_of_answer? (of_decide_eq_true passed)
  exact ⟨c, answer, (oauth_state_single_use (fun _ => rfl) reach).1 stateOfZeros⟩

/-! ### Whose state it is -/

/-- Only states of the browser's own sign-ins are presented for it while they can be accepted. -/
def ownStates (P : Platform) : Guard (signingIn P) := fun σ a =>
  match a with
  | .call i (.redisGetDel _) _ => ∀ b b' s, (σ.own i).any (calledBack b s) = true →
      MintedFor b' s σ → b' ≠ b → σ.world.redis.get σ.world.now (stateKey s) = none
  | _ => True

/-- Every accepted state was drawn by a sign-in of the browser that was called back. -/
def Bound (σ : Shared (signingIn P)) : Prop :=
  ∀ i b s, (σ.own i).any (calledBack b s) = true → (σ.own i).any (accepts s) = true →
    MintedFor b s σ

section Binding

variable {σ : Shared (signingIn P)} {b s : String}

theorem MintedFor.called {i : Nat} {c : Cmd} {res : Except AppError c.Res} {w : World} :
    MintedFor b s σ → MintedFor b s (σ.called i c res w) := by
  rintro ⟨j, began, minted⟩
  exact ⟨j, Shared.any_called.mpr (.inr began),
    Shared.any_called.mpr (.inr minted)⟩

theorem MintedFor.started {n : Nat} {r : OauthReq} :
    MintedFor b s σ → MintedFor b s (σ.started n r) := by
  rintro ⟨j, began, minted⟩
  refine ⟨j, ?_, ?_⟩
  · rw [Shared.started_own]
    split
    · rw [List.any_cons, began, Bool.or_true]
    · exact began
  · rw [Shared.any_started σ n j r rfl]
    exact minted

/-- The entry of a state tells whose sign-in drew it. -/
theorem StateLedger.mintedFor (ledger : StateLedger σ) {e : Stamped String}
    (entry : σ.world.redis (stateKey s) = some e) : ∃ b, MintedFor b s σ := by
  obtain ⟨-, t, ⟨m, logged, keep, -⟩, -⟩ := ledger.entries s e entry
  have minted := ledger.kept m logged s keep
  obtain ⟨b, began⟩ := ledger.minter m.thread s minted
  exact ⟨b, m.thread, began, minted⟩

theorem Bound.acts {σ' : Shared (signingIn P)} (ledger : StateLedger σ)
    (acts : (oauth P).Acts (ownStates P) σ σ') (bound : Bound σ) : Bound σ' := by
  intro i b s asked accepted
  cases acts with
  | start n r fresh _ =>
    rw [Shared.any_started σ n i r rfl] at accepted
    rw [Shared.started_own_of_ne (by rintro rfl; rw [fresh] at accepted; cases accepted)] at asked
    exact (bound i b s asked accepted).started
  | env ms _ => exact bound i b s asked accepted
  | @call j c ch res w _ returned allowed =>
    have before : (σ.own i).any (calledBack b s) = true :=
      (Shared.any_called.mp asked).resolve_left fun now => by cases now.2
    rcases Shared.any_called.mp accepted with ⟨rfl, accept⟩ | earlier
    · obtain ⟨⟨e, entry, live⟩, -⟩ := live_of_accepts accept returned
      obtain ⟨b', minted⟩ := ledger.mintedFor entry
      have cmd := cmd_of_accepts accept
      subst cmd
      by_cases same : b' = b
      · subst same
        exact minted.called
      -- another browser's state would be presented while it can be accepted
      · have gone := Expiring.get_eq_none.mp (allowed b b' s before minted same) e entry
        rw [live] at gone
        cases gone
    · exact (bound i b s before earlier).called

end Binding

/-- As long as no browser is called back with a state of another browser's sign-in that can still
be accepted, a browser is only let through with a state that a sign-in of its own drew. -/
theorem oauth_state_bound {w₀ : World} (cold : ∀ s, w₀.redis (stateKey s) = none)
    {c : Config (signingIn P)} (reach : Reach (ownStates P) (initial w₀) c) :
    ∀ i b s, LetThrough c i b s → MintedFor b s c.shared := by
  have initially : Bound (P := P) ⟨w₀, []⟩ := fun i b s asked => by cases asked
  have both : StateLedger c.shared ∧ Bound c.shared :=
    (oauth_initial w₀).invariant oauth_sound (J := fun σ => StateLedger σ ∧ Bound σ)
      (fun _ _ _ acts both =>
        ⟨both.1.acts (fun _ _ _ pre => pre) acts, both.2.acts both.1 acts⟩)
      ⟨StateLedger.initial cold, initially⟩ reach
  intro i b s through
  obtain ⟨asked, did⟩ := attested_of_letThrough reach through
  exact both.2 i b s asked (Bool.and_eq_true_iff.mp did).1

/-! ### Concrete runs -/

instance (b s : String) (σ : Shared (signingIn P)) : Decidable (MintedFor b s σ) :=
  decidable_of_iff (∃ e ∈ σ.log, (σ.own e.thread).any (begins b) = true ∧
      (σ.own e.thread).any (mints s) = true) <| by
    constructor
    · rintro ⟨e, -, began, minted⟩
      exact ⟨e.thread, began, minted⟩
    · rintro ⟨i, began, minted⟩
      obtain ⟨event, member, -⟩ := List.any_eq_true.mp began
      obtain ⟨e, logged, rfl, -⟩ := Shared.mem_log_of_mem_own member
      exact ⟨e, logged, began, minted⟩

/-- Decides whether the thread let the browser through. -/
def isLetThrough (c : Config (signingIn P)) (i : Nat) (browser s : String) : Bool :=
  match c.answer? i with
  | some (.verify b s', .verified true) => decide (b = browser ∧ s' = s)
  | some (.callback b s' _, .issued _) => decide (b = browser ∧ s' = s)
  | _ => false

theorem letThrough_of_isLetThrough {c : Config (signingIn P)} {i : Nat} {b s : String}
    (test : isLetThrough c i b s = true) : LetThrough c i b s := by
  unfold isLetThrough at test
  split at test
  next answer =>
    obtain ⟨rfl, rfl⟩ := of_decide_eq_true test
    exact .inl (answered_of_answer? answer)
  next exchange tokens answer =>
    obtain ⟨rfl, rfl⟩ := of_decide_eq_true test
    exact .inr ⟨exchange, tokens, answered_of_answer? answer⟩
  · cases test

/-- The browser an event called back. -/
def backOf : Event (signingIn P) → Option String
  | .start (.verify b _) => some b
  | .start (.callback b _ _) => some b
  | _ => none

/-- The browser an event began a sign-in for. -/
def begunFor : Event (signingIn P) → Option String
  | .start (.store b) => some b
  | _ => none

theorem backOf_of_calledBack {b s : String} {e : Event (signingIn P)}
    (called : calledBack b s e = true) : backOf e = some b := by
  unfold calledBack at called
  split at called
  · rw [← (of_decide_eq_true called).1]; rfl
  · rw [← (of_decide_eq_true called).1]; rfl
  · cases called

theorem begunFor_of_begins {b : String} {e : Event (signingIn P)} (began : begins b e = true) :
    begunFor e = some b := by
  unfold begins at began
  split at began
  · rw [← of_decide_eq_true began]; rfl
  · cases began

/-- Decides that a state is presented for the only browser that began a sign-in. -/
def isOwnState (σ : Shared (signingIn P)) : Act (signingIn P) → Bool
  | .call i (.redisGetDel _) _ => (σ.own i).all fun x => σ.log.all fun e =>
      (backOf x).all fun b => (begunFor e.event).all fun b' => decide (b' = b)
  | _ => true

theorem ownStates_of_isOwnState (σ : Shared (signingIn P)) (a : Act (signingIn P))
    (test : isOwnState σ a = true) : ownStates P σ a := by
  cases a with
  | call i c ch =>
    cases c with
    | redisGetDel key =>
      rintro b b' s asked ⟨j, began, -⟩ other
      obtain ⟨x, member, called⟩ := List.any_eq_true.mp asked
      obtain ⟨y, member', began⟩ := List.any_eq_true.mp began
      obtain ⟨e, logged, -, rfl⟩ := Shared.mem_log_of_mem_own member'
      -- the log holds one sign-in, and it was begun for the browser called back
      have same := List.all_eq_true.mp (List.all_eq_true.mp test x member) e logged
      rw [backOf_of_calledBack called, begunFor_of_begins began] at same
      exact absurd (of_decide_eq_true same) other
    | _ => trivial
  | _ => trivial

/-- One browser begins a sign-in, another is called back with its state and signs in. -/
def crossed (browser other : String) : List (Move (signingIn Platform.plain)) :=
  [.start (.store browser), .run 0 { draw := stateOfZeros }, .run 0 {},
   .start (.callback other stateOfZeros (some ⟨"g", some [⟨"u@ab.cd", true, true⟩]⟩)), .run 1 {},
   .run 1 {}, .run 1 {}, .run 1 { draw := "u" }, .run 1 {}, .run 1 { draw := "p" }, .run 1 {},
   .run 1 { draw := "j" }, .run 1 { draw := "f" }, .run 1 {}, .run 1 {}, .run 1 {}]

theorem oauth_state_bound_own :
    ∃ c : Config (signingIn Platform.plain), LetThrough c 1 "a" stateOfZeros ∧
      MintedFor "a" stateOfZeros c.shared := by
  obtain ⟨c, reach, passed⟩ := exists_reach_of_play ownStates_of_isOwnState
    (initial (V := signingIn Platform.plain) (World.empty 5000)) (crossed "a" "a")
    (fun c => isLetThrough c 1 "a" stateOfZeros) (by decide +kernel)
  have through := letThrough_of_isLetThrough passed
  exact ⟨c, through, oauth_state_bound (fun _ => rfl) reach 1 "a" stateOfZeros through⟩

/-- A browser is signed in through a flow that another browser began. -/
theorem oauth_state_crosses_browsers :
    ¬∀ (P : Platform) (w₀ : World), (∀ s, w₀.redis (stateKey s) = none) →
      ∀ c, Reach anyStep (initial (V := signingIn P) w₀) c →
        ∀ i b s, LetThrough c i b s → MintedFor b s c.shared := by
  intro bound
  obtain ⟨c, reach, passed⟩ := exists_reach_of_play anyStep_of_anyReady
    (initial (V := signingIn Platform.plain) (World.empty 5000)) (crossed "a" "b")
    (fun c => isLetThrough c 1 "b" stateOfZeros && !decide (MintedFor "b" stateOfZeros c.shared))
    (by decide +kernel)
  rw [Bool.and_eq_true, Bool.not_eq_true', decide_eq_false_iff_not] at passed
  exact passed.2 (bound Platform.plain (World.empty 5000) (fun _ => rfl) c reach 1 "b" stateOfZeros
    (letThrough_of_isLetThrough passed.1))

end Mikrouli
