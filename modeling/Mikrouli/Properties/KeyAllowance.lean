import Mikrouli.Properties.KeySteps

/-! The monthly key quota over requests that do not overlap: the keys that count are the keys that
were created, so the gate is exact and a revocation gives nothing back. -/

namespace Mikrouli

open Async Store

variable {P : Platform}

/-! ### Runs -/

/-- The requests on API keys. -/
def Req.onKeys : Req → Bool
  | .createKey _ _ | .revokeKey _ _ | .validateKey _ | .listKeys _ => true
  | _ => false

/-- Only requests on API keys arrive. Any statement may fail and the clock may advance anywhere. -/
def keyCalls (P : Platform) : Guard (mikrouli P) := fun _ a =>
  match a with
  | .start (r : Req) => r.onKeys = true
  | _ => True

/-- A validation is answered before its last-used update has been made, so here it may overlap
what comes after it. -/
def Req.lingers : Req → Prop
  | .validateKey _ => True
  | _ => False

instance : DecidablePred Req.lingers
  | .validateKey _ => isTrue trivial
  | .register _ _ | .validateCredentials _ _ | .login _ _ | .findOrCreateFromProvider _
  | .loginWithGithub _ | .rotateRefresh _ | .revokeRefresh _ | .createLink _ _ _
  | .createShortLink _ _ _ | .updateLink _ _ _ | .removeLink _ _ | .resolve _ | .cleanup
  | .createKey _ _ | .revokeKey _ _ | .listKeys _ => isFalse id

/-- Requests on API keys one after the other. -/
abbrev KeyTurns (P : Platform) : Config (mikrouli P) → Config (mikrouli P) → Prop :=
  Turns (keyCalls P) Req.lingers

/-- The user created a key in the month. -/
def createsKey (userId : String) (month : Int × Int) (e : Entry (mikrouli P)) : Bool :=
  match e.event with
  | .call (.saveApiKey _ _ _ _) (.ok (key : ApiKey)) => key.createdBy userId month.1 month.2
  | _ => false

/-- How many keys the user has created in the month. -/
def createdKeys (userId : String) (month : Int × Int) (log : List (Entry (mikrouli P))) : Nat :=
  log.countP (createsKey userId month)

/-- How many more keys the gate lets the user create in the month. -/
def keysLeft (P : Platform) (user : User) (month : Int × Int) (w : World) : Int :=
  UsageService.resolveKeyLimit P user - keyRows user.id month w

/-! ### What the log says -/

/-- What holds of the keys, the users and the log whichever requests on keys have run. -/
structure KeyLedger (w₀ : World) (σ : Shared (mikrouli P)) : Prop where
  asked : ∀ i r, .start r ∈ σ.own i → Req.onKeys r = true
  users : σ.world.users = w₀.users
  clock : ∀ i t, .call .dateNow (.ok t) ∈ σ.own i → t ≤ σ.world.now
  past : ∀ k ∈ σ.world.apiKeys.rows, k.createdAt ≤ σ.world.now
  drawn : ∀ k ∈ σ.world.apiKeys.rows, k.id ∈ σ.world.drawn
  rows : ∀ userId month, keyRows userId month σ.world = createdKeys userId month σ.log
  counts : ∀ newer e older userId month n, σ.log = newer ++ e :: older →
    e.event = .call (.countKeys userId month.1 month.2) (.ok n) →
    n = createdKeys userId month older
  found : ∀ i userId user, .call (.findUserById userId) (.ok user) ∈ σ.own i →
    user = w₀.userById i userId
  untaken : ∀ i u l h p, .call (.saveApiKey u l h p) (.error .uniqueViolation) ∉ σ.own i

section Ledger

variable {w₀ : World} {σ σ' : Shared (mikrouli P)} {i : Nat} {c : Cmd} {ch : Choice} {w : World}
  {res : Except AppError c.Res}

/-- No account is written: no request for that has been made. -/
theorem KeyLedger.accounts (ledger : KeyLedger w₀ σ) (step : KeyStep P (σ.own i) c) :
    c.writesAccounts = false := by
  -- no request is on both keys and accounts
  have never : ¬∃ r, .start r ∈ σ.own i ∧ Req.onAccounts r = true := by
    rintro ⟨r, started, accounts⟩
    have keys := ledger.asked i r started
    cases r <;> simp [Req.onKeys, Req.onAccounts] at keys accounts
  cases c with
  | commit | rollback => exact absurd step never
  | insertUser email passwordHash => exact absurd step never
  | saveProviderAccount providerUserId userId => exact absurd step never
  | _ => rfl

/-- Creations in the log and keys in the table grow together. -/
theorem KeyLedger.rows_called (ledger : KeyLedger w₀ σ) (returned : exec P i c ch σ.world = some (res, w))
    (userId : String) (month : Int × Int) :
    keyRows userId month w = createdKeys userId month (σ.called i c res w).log := by
  have before := ledger.rows userId month
  have counted : createdKeys userId month (σ.called i c res w).log =
      createdKeys userId month σ.log +
        if createsKey userId month ⟨i, .call c res, w⟩ then 1 else 0 := List.countP_cons
  rw [counted, ← before]
  cases c with
  | saveApiKey u l h p =>
    -- a failed INSERT adds to neither, one that succeeds to both
    rcases keyRows_saveApiKey userId month returned with ⟨⟨e, rfl⟩, same⟩ | ⟨key, rfl, -, -, more⟩
    · exact same
    · exact more
  | _ => exact keyRows_of_other userId month (by simp) returned

theorem KeyLedger.called (ledger : KeyLedger w₀ σ) (step : KeyStep P (σ.own i) c)
    (returned : exec P i c ch σ.world = some (res, w)) : KeyLedger w₀ (σ.called i c res w) := by
  have frame := exec_frame returned
  have users : σ.world.users = w₀.users := ledger.users
  constructor
  case asked => exact fun j r started => ledger.asked j r (Shared.start_mem_own_called.mp started)
  case users => exact (frame.users (ledger.accounts step)).trans users
  case clock =>
    intro j t read
    rw [Shared.called_world, frame.now]
    rcases Shared.mem_own_called.mp read with ⟨-, event⟩ | old
    · cases event
      obtain ⟨-, same⟩ := exec_dateNow returned
      cases same
      exact le_rfl
    · exact ledger.clock j t old
  case past =>
    intro k member
    rw [Shared.called_world, frame.now]
    rcases (exec_keys returned).2 k member with ⟨k₀, old, becomes⟩ | ⟨u, l, p, rfl, event⟩
    · rw [becomes.createdAt]
      exact ledger.past k₀ old
    · cases event
      rcases exec_saveApiKey returned with ⟨-, failed | ⟨failed, -⟩⟩ | ⟨key, -, same, -, -, row, -⟩
      · cases failed
      · cases failed
      · cases same
        rw [row]
  case drawn =>
    intro k member
    rcases (exec_keys returned).2 k member with ⟨k₀, old, becomes⟩ | ⟨u, l, p, rfl, event⟩
    · rw [becomes.id]
      exact frame.drawn (ledger.drawn k₀ old)
    · cases event
      rcases exec_saveApiKey returned with
        ⟨-, failed | ⟨failed, -⟩⟩ | ⟨key, -, same, -, -, row, drawn⟩
      · cases failed
      · cases failed
      · cases same
        rw [row, Shared.called_world, drawn]
        exact List.mem_cons_self
  case rows => exact ledger.rows_called returned
  case counts =>
    intro newer e older userId month n split event
    cases newer with
    | nil =>
      obtain ⟨rfl, rfl⟩ : ⟨i, .call c res, w⟩ = e ∧ σ.log = older := List.cons.inj split
      cases event
      obtain ⟨-, failed | same⟩ := exec_countKeys returned
      · cases failed
      · cases same
        exact ledger.rows userId month
    -- the split lies in the older part of the log
    | cons first newer =>
      obtain ⟨-, rest⟩ : _ ∧ σ.log = newer ++ e :: older := List.cons.inj split
      exact ledger.counts newer e older userId month n rest event
  case found =>
    intro j userId user read
    rcases Shared.mem_own_called.mp read with ⟨rfl, event⟩ | old
    · cases event
      obtain ⟨-, ⟨-, failed⟩ | same⟩ := exec_findUserById returned
      · cases failed
      · cases same
        rw [World.userById, users, World.userById]
    · exact ledger.found j userId user old
  case untaken =>
    intro j u l h p failed
    rcases Shared.mem_own_called.mp failed with ⟨rfl, event⟩ | old
    · cases event
      rcases exec_saveApiKey returned with
        ⟨-, other | ⟨-, k, member, unused⟩⟩ | ⟨key, -, saved, -⟩
      · cases other
      -- an id that was drawn fresh cannot be taken
      · exact unused (ledger.drawn k member)
      · cases saved
    · exact ledger.untaken j u l h p old

theorem KeyLedger.started (ledger : KeyLedger w₀ σ) (n : Nat) {r : Req} (request : r.onKeys = true) :
    KeyLedger w₀ (σ.started n r) := by
  constructor
  case asked =>
    intro j r' started
    rcases Shared.mem_own_started.mp started with ⟨-, event⟩ | old
    · cases event
      exact request
    · exact ledger.asked j r' old
  case users => exact ledger.users
  case clock => exact fun j t read => ledger.clock j t (Shared.call_mem_own_started.mp read)
  case past => exact ledger.past
  case drawn => exact ledger.drawn
  case rows => exact ledger.rows
  case counts =>
    intro newer e older userId month n split event
    cases newer with
    | nil =>
      obtain ⟨rfl, -⟩ := List.cons.inj split
      cases event
    | cons first newer =>
      obtain ⟨-, rest⟩ : _ ∧ σ.log = newer ++ e :: older := List.cons.inj split
      exact ledger.counts newer e older userId month n rest event
  case found =>
    intro j userId user read
    exact ledger.found j userId user (Shared.call_mem_own_started.mp read)
  case untaken =>
    intro j u l h p failed
    exact ledger.untaken j u l h p (Shared.call_mem_own_started.mp failed)

theorem KeyLedger.acts (ledger : KeyLedger w₀ σ) (acts : (apiKeys P).Acts (keyCalls P) σ σ') :
    KeyLedger w₀ σ' := by
  cases acts with
  | start n r _ request => exact ledger.started n request
  | call pre returned _ => exact ledger.called pre returned
  | env ms _ =>
    have later : σ.world.now ≤ σ.world.now + ms := Nat.le_add_right _ _
    exact ⟨ledger.asked, ledger.users, fun j t read => (ledger.clock j t read).trans later,
      fun k member => (ledger.past k member).trans later, ledger.drawn, ledger.rows, ledger.counts,
      ledger.found, ledger.untaken⟩

theorem keyLedger_initial (empty : w₀.apiKeys.rows = []) : KeyLedger (P := P) w₀ ⟨w₀, []⟩ := by
  constructor
  case rows =>
    intro userId month
    change w₀.apiKeys.rows.countP _ = 0
    rw [empty]
    rfl
  case past =>
    intro k member
    rw [show w₀.apiKeys.rows = [] from empty] at member
    cases member
  case drawn =>
    intro k member
    rw [show w₀.apiKeys.rows = [] from empty] at member
    cases member
  all_goals simp [Shared.own]

end Ledger

/-! ### Creations in progress -/

/-- What thread `i` has seen is still so: no key is newer than its reading of the clock, and its
count is still right. -/
structure Current (σ : Shared (mikrouli P)) (i : Nat) : Prop where
  clock : ∀ t, .call .dateNow (.ok t) ∈ σ.own i → ∀ k ∈ σ.world.apiKeys.rows, k.createdAt ≤ t
  count : ∀ userId month n, .call (.countKeys userId month.1 month.2) (.ok n) ∈ σ.own i →
    keyRows userId month σ.world = n

/-- No user has more keys of a month than they may create in one. -/
def WithinLimits (P : Platform) (w₀ w : World) : Prop :=
  ∀ v ∈ w₀.users.rows, ∀ t,
    keyRows v.row.id (getMonthBounds t) w ≤ (UsageService.resolveKeyLimit P v.row).toNat

section Progress

variable {w₀ : World} {σ : Shared (mikrouli P)} {i j : Nat} {c : Cmd} {ch : Choice} {w : World}
  {res : Except AppError c.Res}

/-- A command that creates no key leaves what other threads have seen as it is. -/
theorem Current.other (current : Current σ j) (apart : j ≠ i)
    (other : ∀ u l h p, c ≠ .saveApiKey u l h p)
    (returned : exec P i c ch σ.world = some (res, w)) : Current (σ.called i c res w) j := by
  have own : (σ.called i c res w).own j = σ.own j := Shared.called_own_of_ne apart σ c res w
  constructor
  · intro t read k member
    rw [own] at read
    rcases (exec_keys returned).2 k member with ⟨k₀, old, becomes⟩ | ⟨u, l, p, saves, -⟩
    · rw [becomes.createdAt]
      exact current.clock t read k₀ old
    · exact absurd saves (other u l _ p)
  · intro userId month n counted
    rw [own] at counted
    exact (keyRows_of_other userId month other returned).trans (current.count userId month n counted)

/-- The thread's own readings are current when it makes them. -/
theorem Current.own (current : Current σ i) (ledger : KeyLedger w₀ σ)
    (other : ∀ u l h p, c ≠ .saveApiKey u l h p)
    (returned : exec P i c ch σ.world = some (res, w)) : Current (σ.called i c res w) i := by
  have sameRows := fun userId month => keyRows_of_other userId month other returned
  constructor
  · intro t read k member
    rcases (exec_keys returned).2 k member with ⟨k₀, old, becomes⟩ | ⟨u, l, p, saves, -⟩
    · rw [becomes.createdAt]
      rcases Shared.mem_own_called.mp read with ⟨-, event⟩ | before
      · cases event
        obtain ⟨-, same⟩ := exec_dateNow returned
        cases same
        exact ledger.past k₀ old
      · exact current.clock t before k₀ old
    · exact absurd saves (other u l _ p)
  · intro userId month n counted
    rw [Shared.called_world, sameRows]
    rcases Shared.mem_own_called.mp counted with ⟨-, event⟩ | before
    · cases event
      obtain ⟨-, failed | same⟩ := exec_countKeys returned
      · cases failed
      · cases same
        rfl
    · exact current.count userId month n before

/-- A key created in another month than it was counted for is the first of its month. -/
theorem keyRows_eq_zero {t t₁ : Nat} (past : ∀ k ∈ w.apiKeys.rows, k.createdAt ≤ t₁)
    (before : (t₁ : Int) < (getMonthBounds t).2) (apart : getMonthBounds t₁ ≠ getMonthBounds t)
    (userId : String) : keyRows userId (getMonthBounds t) w = 0 := by
  refine List.countP_eq_zero.mpr fun k member counts => apart ?_
  simp only [ApiKey.createdBy, Bool.and_eq_true, decide_eq_true_eq] at counts
  -- a key of the month would be older than the reading, which lies before the month's end
  have older := past k member
  exact getMonthBounds_unique (by omega) before

/-- The gate holds: what was counted below the limit is one more afterwards. -/
theorem WithinLimits.save {u l h p : String} {res : Except AppError ApiKey}
    (within : WithinLimits P w₀ σ.world) (ledger : KeyLedger w₀ σ) (current : Current σ i)
    (admitted : Admitted P (σ.own i) u)
    (returned : exec P i (.saveApiKey u l h p) ch σ.world = some (res, w)) :
    WithinLimits P w₀ w := by
  intro v member t
  have bound := within v member t
  rcases keyRows_saveApiKey v.row.id (getMonthBounds t) returned with
    ⟨-, same⟩ | ⟨key, -, owner, created, more⟩
  · rw [same]
    exact bound
  rw [more]
  split
  next counts =>
    simp only [ApiKey.createdBy, Bool.and_eq_true, decide_eq_true_eq, owner, created] at counts
    obtain ⟨⟨rfl, begun⟩, ends⟩ := counts
    obtain ⟨t₁, n, user, counted, below⟩ := admitted
    -- the limit was that of the user's own row
    obtain ⟨v', member', row, -, id⟩ :=
      World.userById_eq_some (ledger.found i v.row.id _ counted.found).symm
    have rows : v' = v :=
      Table.eq_of_key (k := fun v : Versioned User => v.row.id) (by simp) member' member
        (by rw [row, id])
    subst rows
    subst row
    -- counted for the month the key falls in, or for an earlier one
    by_cases sameMonth : getMonthBounds t₁ = getMonthBounds t
    -- the count is still right, and it was below the limit
    · have seen := current.count _ _ n counted.count
      rw [sameMonth] at seen
      omega
    -- the month has begun since: the key is its first, and the limit above zero
    · have earlier := ledger.clock i t₁ counted.clock
      have none := keyRows_eq_zero (current.clock t₁ counted.clock) (by omega) sameMonth v'.row.id
      omega
  next => exact bound

/-- Nothing else moves a user's count. -/
theorem WithinLimits.other (within : WithinLimits P w₀ σ.world)
    (other : ∀ u l h p, c ≠ .saveApiKey u l h p)
    (returned : exec P i c ch σ.world = some (res, w)) : WithinLimits P w₀ w := by
  intro v member t
  rw [keyRows_of_other v.row.id (getMonthBounds t) other returned]
  exact within v member t

end Progress

/-! ### Whole runs -/

/-- The thread has not saved a key. -/
def Unsaved (es : Events P) : Prop := ∀ u l h p res, .call (.saveApiKey u l h p) res ∉ es

/-- What a run of requests one after the other keeps. -/
structure InTurn (w₀ : World) (c : Config (mikrouli P)) : Prop where
  ledger : KeyLedger w₀ c.shared
  current : ∀ i userId label p, c.threads[i]? = some (.createKey userId label, p) → ¬p.Ended →
    Unsaved (c.shared.own i) → Current c.shared i
  within : WithinLimits P w₀ c.shared.world

section Runs

variable {w₀ : World} {c c' : Config (mikrouli P)} {i : Nat}

theorem keyTurns_holds (turns : KeyTurns P (initial w₀) c) : (apiKeys P).Holds (keyCalls P) c :=
  (Contract.ofHistory_holds w₀).reach apiKeys_sound turns.reach

/-- A thread that is about to save a key was asked to create it. -/
theorem creates_of_saves (turns : KeyTurns P (initial w₀) c) {u l h p : String} {r : Req}
    {k : Except AppError ApiKey → Prog Ans}
    (thread : c.threads[i]? = some (r, .await (.saveApiKey u l h p) k)) : r = .createKey u l := by
  have awaits : c.Awaits i (.saveApiKey u l h p) := ⟨r, k, thread⟩
  have step : KeyStep P (c.shared.own i) (.saveApiKey u l h p) := (keyTurns_holds turns).pre awaits
  exact Config.Asked.unique ⟨_, thread⟩ ((asked_iff_started turns.reach i _).mpr step.1)

/-- While one thread saves a key, no other creation is in progress. -/
theorem alone_of_saves (turns : KeyTurns P (initial w₀) c) {u l h p userId label : String} {r : Req}
    {k : Except AppError ApiKey → Prog Ans} {j : Nat} {q : Prog Ans}
    (thread : c.threads[i]? = some (r, .await (.saveApiKey u l h p) k))
    (other : c.threads[j]? = some (.createKey userId label, q)) (running : ¬q.Ended) : i = j := by
  have asked := creates_of_saves turns thread
  subst asked
  exact turns.alone ⟨_, _, thread, id, id⟩ ⟨_, _, other, running, id⟩

/-- A thread that has only been asked has seen nothing. -/
theorem current_of_fresh {σ : Shared (mikrouli P)} {n : Nat} {r : Req} (fresh : σ.own n = []) :
    Current (σ.started n r) n := by
  constructor
  · intro t read
    rw [Shared.started_own_self, fresh] at read
    simp at read
  · intro userId month m counted
    rw [Shared.started_own_self, fresh] at counted
    simp at counted

theorem InTurn.start {σ : Shared (mikrouli P)} {ts : List (Req × Prog Ans)}
    (inTurn : InTurn w₀ ⟨σ, ts⟩) (fresh : σ.own ts.length = []) {r : Req}
    (request : r.onKeys = true)
    (turn : TurnStep (keyCalls P) Req.lingers ⟨σ, ts⟩ (Config.arrive ⟨σ, ts⟩ r)) :
    InTurn w₀ (Config.arrive ⟨σ, ts⟩ r) := by
  refine ⟨inTurn.ledger.started ts.length request, ?_, inTurn.within⟩
  intro j userId label p thread running _
  rw [Config.arrive, List.getElem?_append] at thread
  split at thread
  next old =>
    -- no creation was in progress when the request arrived
    exact absurd ⟨_, p, thread, running, id⟩ (turn.idle j)
  next new =>
    have below := (List.getElem?_eq_some_iff.mp thread).1
    have index : j = ts.length := by
      change ¬j < ts.length at new
      change j - ts.length < 1 at below
      omega
    subst index
    exact current_of_fresh fresh

theorem InTurn.call (turns : KeyTurns P (initial w₀) c) (inTurn : InTurn w₀ c) {r : Req} {cmd : Cmd}
    {k : Except AppError cmd.Res → Prog Ans} {ch : Choice} {res : Except AppError cmd.Res}
    {w : World} (thread : c.threads[i]? = some (r, .await cmd k))
    (returned : exec P i cmd ch c.shared.world = some (res, w)) :
    InTurn w₀ ⟨c.shared.called i cmd res w, c.threads.set i (r, k res)⟩ := by
  have step : KeyStep P (c.shared.own i) cmd := (keyTurns_holds turns).pre ⟨r, k, thread⟩
  refine ⟨inTurn.ledger.called step returned, ?_, ?_⟩
  · intro j userId label p after running unsaved
    -- the thread itself, which has not saved a key in this step, or another one
    by_cases same : j = i
    · subst same
      rw [List.getElem?_set_self (List.getElem?_eq_some_iff.mp thread).1] at after
      cases after
      have before : Unsaved (c.shared.own j) := fun u l h q res' saved =>
        unsaved u l h q res' (Shared.mem_own_called.mpr (.inr saved))
      have other : ∀ u l h q, cmd ≠ .saveApiKey u l h q := by
        rintro u l h q rfl
        exact unsaved u l h q res (Shared.mem_own_called.mpr (.inl ⟨rfl, rfl⟩))
      exact (inTurn.current j userId label _ thread id before).own inTurn.ledger other returned
    · rw [List.getElem?_set_ne (Ne.symm same)] at after
      rw [Shared.called_own_of_ne same] at unsaved
      -- another thread can only save a key while this one is not creating any
      have other : ∀ u l h q, cmd ≠ .saveApiKey u l h q := by
        rintro u l h q rfl
        exact same (alone_of_saves turns thread after running).symm
      exact (inTurn.current j userId label p after running unsaved).other same other returned
  · cases cmd with
    -- the one step that adds a key
    | saveApiKey u l h q =>
      have asked := creates_of_saves turns thread
      subst asked
      have current := inTurn.current i u l _ thread id step.2.1
      exact inTurn.within.save inTurn.ledger current step.2.2.1 returned
    | _ => exact inTurn.within.other (by simp) returned

theorem inTurn_of_turns (empty : w₀.apiKeys.rows = []) (turns : KeyTurns P (initial w₀) c) :
    InTurn w₀ c := by
  induction turns with
  | refl =>
    refine ⟨keyLedger_initial empty, ?_, ?_⟩
    · intro j userId label p thread
      simp [initial] at thread
    · intro v _ t
      have none : keyRows v.row.id (getMonthBounds t) w₀ = 0 := by
        rw [keyRows, Table.count, empty]
        rfl
      rw [initial, none]
      exact Nat.zero_le _
  | @tail c c' earlier turn ih =>
    obtain ⟨step, idle⟩ := turn
    cases step with
    | @start σ ts r request =>
      -- a request that arrives finds no creation in progress
      have fresh := own_nil_of_logged (keyTurns_holds earlier).logged
      exact ih.start fresh request ⟨.start r request, idle⟩
    | call thread returned _ => exact ih.call earlier thread returned
    | env ms allowed =>
      refine ⟨ih.ledger.acts (.env ms allowed), fun j userId label p thread running unsaved => ?_,
        ih.within⟩
      have current := ih.current j userId label p thread running unsaved
      exact ⟨current.clock, current.count⟩

/-- Where in the log a thread counted, and what it found. -/
theorem split_of_counted (empty : w₀.apiKeys.rows = []) (turns : KeyTurns P (initial w₀) c)
    {userId : String} {t n : Nat} {user : User}
    (counted : Counted (c.shared.own i) userId t n user) :
    ∃ newer e older, c.shared.log = newer ++ e :: older ∧ e.thread = i ∧
      e.event = .call (.countKeys userId (getMonthBounds t).1 (getMonthBounds t).2) (.ok n) ∧
      n = createdKeys userId (getMonthBounds t) older := by
  obtain ⟨e, logged, mine, event⟩ := Shared.mem_log_of_mem_own counted.count
  obtain ⟨newer, older, split⟩ := List.append_of_mem logged
  have ledger := (inTurn_of_turns empty turns).ledger
  exact ⟨newer, e, older, split, mine, event, ledger.counts newer e older _ _ n split event⟩

end Runs

/-! ### The quota -/

section Quota

variable {w₀ : World} {c : Config (mikrouli P)} {user : User}

/-- The month for which a creation counted, and the keys the user had created in it by then. -/
structure CountedFor (c : Config (mikrouli P)) (i : Nat) (userId : String) (t created : Nat) :
    Prop where
  clock : .call .dateNow (.ok t) ∈ c.shared.own i
  count : ∃ newer e older n, c.shared.log = newer ++ e :: older ∧ e.thread = i ∧
    e.event = .call (.countKeys userId (getMonthBounds t).1 (getMonthBounds t).2) (.ok n) ∧
    created = createdKeys userId (getMonthBounds t) older

theorem createdKeys_le_limit (empty : w₀.apiKeys.rows = [])
    (row : (⟨user, none⟩ : Versioned User) ∈ w₀.users.rows) (turns : KeyTurns P (initial w₀) c)
    (t : Nat) : createdKeys user.id (getMonthBounds t) c.shared.log ≤
      (UsageService.resolveKeyLimit P user).toNat := by
  have inTurn := inTurn_of_turns empty turns
  rw [← inTurn.ledger.rows]
  exact inTurn.within ⟨user, none⟩ row t

/-- A creation succeeds exactly below the limit, when no statement of it fails. -/
theorem answered_iff_below (empty : w₀.apiKeys.rows = [])
    (row : (⟨user, none⟩ : Versioned User) ∈ w₀.users.rows) (turns : KeyTurns P (initial w₀) c)
    {i : Nat} {label : String} {p : Prog Ans}
    (thread : c.threads[i]? = some (.createKey user.id label, p)) (ended : p.Ended)
    (works : ∀ cmd, .call cmd (.error .queryFailed) ∉ c.shared.own i) :
    ∃ t created, CountedFor c i user.id t created ∧
      ((∃ a, c.Answered i (.createKey user.id label) a) ↔
        (created : Int) < UsageService.resolveKeyLimit P user) := by
  have holds := keyTurns_holds turns
  have ledger := (inTurn_of_turns empty turns).ledger
  have same : ∀ {user' t n}, Counted (c.shared.own i) user.id t n user' → user' = user := by
    intro user' t n counted
    have found := ledger.found i user.id _ counted.found
    rw [userById_of_row row] at found
    exact Option.some.inj found
  have counts : ∀ {user' t n}, Counted (c.shared.own i) user.id t n user' →
      CountedFor c i user.id t n := by
    intro user' t n counted
    obtain ⟨newer, e, older, split, mine, event, created⟩ := split_of_counted empty turns counted
    exact ⟨counted.clock, newer, e, older, n, split, mine, event, created⟩
  cases p with
  | await cmd k => exact absurd ended id
  | done a =>
    obtain ⟨⟨t, n, user', counted, below⟩, -⟩ := holds.history_ok thread
    obtain rfl := same counted
    exact ⟨t, n, counts counted, fun _ => below, fun _ => ⟨a, thread⟩⟩
  | fail e =>
    have unanswered : ¬∃ a, c.Answered i (.createKey user.id label) a := by
      rintro ⟨a, answered⟩
      cases thread.symm.trans answered
    -- why it was refused: only a full month is left
    cases holds.history_error thread user.id label rfl with
    | failed failed => exact absurd failed (works _)
    | missing missing =>
      have found := ledger.found i user.id _ missing
      rw [userById_of_row row] at found
      cases found
    | taken taken => exact absurd taken (ledger.untaken i _ _ _ _)
    | full counted full =>
      obtain rfl := same counted
      exact ⟨_, _, counts counted, fun answered => absurd answered unanswered,
        fun below => absurd below (Int.not_lt.mpr full)⟩

/-- The key quota is exact over requests that do not overlap: no month ever has more creations
than the limit, and what is left of the limit bounds those to come; a step of a revocation leaves
what is left as it is; and a creation succeeds exactly if, in the month it counted for, the user
had created fewer keys than the limit. -/
theorem key_quota_exact (empty : w₀.apiKeys.rows = [])
    (row : (⟨user, none⟩ : Versioned User) ∈ w₀.users.rows) (turns : KeyTurns P (initial w₀) c) :
    (∀ t, createdKeys user.id (getMonthBounds t) c.shared.log ≤
      (UsageService.resolveKeyLimit P user).toNat) ∧
    (∀ t c', KeyTurns P c c' → createdKeys user.id (getMonthBounds t) c'.shared.log ≤
      createdKeys user.id (getMonthBounds t) c.shared.log +
        (keysLeft P user (getMonthBounds t) c.shared.world).toNat) ∧
    (∀ i userId id cmd k ch res w, c.threads[i]? = some (.revokeKey userId id, .await cmd k) →
      exec P i cmd ch c.shared.world = some (res, w) →
      ∀ t, keysLeft P user (getMonthBounds t) w =
        keysLeft P user (getMonthBounds t) c.shared.world) ∧
    ∀ i label p, c.threads[i]? = some (.createKey user.id label, p) → p.Ended →
      (∀ cmd, .call cmd (.error .queryFailed) ∉ c.shared.own i) →
      ∃ t created, CountedFor c i user.id t created ∧
        ((∃ a, c.Answered i (.createKey user.id label) a) ↔
          (created : Int) < UsageService.resolveKeyLimit P user) := by
  refine ⟨createdKeys_le_limit empty row turns, ?_, ?_, ?_⟩
  · intro t c' later
    have bound := createdKeys_le_limit empty row (turns.trans later) t
    have before := (inTurn_of_turns empty turns).ledger.rows user.id (getMonthBounds t)
    -- what has been created and what is left together stay within the limit
    rw [keysLeft, before]
    omega
  · intro i userId id cmd k ch res w thread returned t
    have other : ∀ u l h p, cmd ≠ .saveApiKey u l h p := by
      rintro u l h p rfl
      cases creates_of_saves turns thread
    rw [keysLeft, keyRows_of_other user.id (getMonthBounds t) other returned, keysLeft]
  · exact fun i label p thread ended works => answered_iff_below empty row turns thread ended works

end Quota

/-! ### A concrete run -/

/-- A user who may create one key a month. -/
def oneKeyUser : User := ⟨"u", "u@ab.cd", none, none, some 1, 0⟩

def oneKeyWorld : World := { World.empty 5000 with users := ⟨[⟨oneKeyUser, none⟩], by simp⟩ }

/-- A key is created and revoked, and another one asked for. -/
def createRevokeCreate : List (Move (mikrouli Platform.plain)) :=
  [.start (.createKey "u" "laptop"), .run 0 {}, .run 0 {}, .run 0 {},
   .run 0 { draw := "abcdefghijklmnopqrstuvwxyzABCDEFGHIJKLMNOPQ" }, .run 0 {},
   .run 0 { draw := "key" }, .start (.revokeKey "u" "key"), .run 1 {}, .run 1 {},
   .start (.createKey "u" "phone"), .run 2 {}, .run 2 {}, .run 2 {}]

/-- Decides that a step of `createRevokeCreate` is one of a request on keys. -/
def isKeyCall (_ : Shared (mikrouli Platform.plain)) : Act (mikrouli Platform.plain) → Bool
  | .start (r : Req) => r.onKeys
  | _ => true

theorem keyCalls_of_isKeyCall (σ : Shared (mikrouli Platform.plain))
    (a : Act (mikrouli Platform.plain)) (ready : isKeyCall σ a = true) :
    keyCalls Platform.plain σ a := by
  cases a with
  | start r => exact ready
  | call i c ch => trivial
  | env ms => trivial

/-- No statement of the thread failed. -/
def worked (es : Events Platform.plain) : Bool :=
  es.all fun
    | .call _ (.error e) => decide (e ≠ .queryFailed)
    | _ => true

theorem key_quota_exact_revoked :
    ∃ c : Config (mikrouli Platform.plain),
      createdKeys "u" (getMonthBounds 5000) c.shared.log = 1 ∧
      createdKeys "u" (getMonthBounds 5000) c.shared.log ≤ 1 ∧
      c.Failed 2 (.createKey "u" "phone") ∧
      ∃ t created, CountedFor c 2 "u" t created ∧
        ((∃ a, c.Answered 2 (.createKey "u" "phone") a) ↔ (created : Int) < 1) := by
  obtain ⟨c, turns, passed⟩ := exists_turns_of_playTurns keyCalls_of_isKeyCall Req.lingers
    (initial (V := mikrouli Platform.plain) oneKeyWorld) createRevokeCreate
    (fun c => decide (createdKeys "u" (getMonthBounds 5000) c.shared.log = 1) &&
      worked (c.shared.own 2) && (c.threads[2]?).any fun t =>
        match t with
        | (r, .fail _) => decide (r = .createKey "u" "phone")
        | _ => false)
    (by decide +kernel)
  simp only [Bool.and_eq_true, decide_eq_true_eq] at passed
  obtain ⟨⟨once, sound⟩, refused⟩ := passed
  obtain ⟨⟨r, p⟩, thread, failed⟩ := (Option.any_eq_true _ _).mp refused
  cases p with
  | done a => cases failed
  | await cmd k => cases failed
  | fail e =>
    obtain rfl := of_decide_eq_true failed
    have works : ∀ cmd, .call cmd (.error .queryFailed) ∉ c.shared.own 2 := by
      intro cmd member
      have fine := List.all_eq_true.mp sound _ member
      simp at fine
    have row : (⟨oneKeyUser, none⟩ : Versioned User) ∈ oneKeyWorld.users.rows := by decide
    have quota := key_quota_exact rfl row turns
    exact ⟨c, once, quota.1 5000, ⟨e, thread⟩, quota.2.2.2 2 "phone" _ thread trivial works⟩

end Mikrouli
