import Mikrouli.Properties.KeySteps

/-! API keys under any interleaving: a text validates only as the plaintext of a key that was
live when it was looked up, and never again once the key has been revoked. -/

namespace Mikrouli

open Async Store

variable {P : Platform}

/-! ### Plaintexts -/

theorem size_utf8Encode {l : List Char} (ascii : ∀ c ∈ l, c.utf8Size = 1) :
    l.utf8Encode.size = l.length := by
  induction l with
  | nil => rfl
  | cons c l ih =>
    have first := ascii c List.mem_cons_self
    have rest := ih fun d member => ascii d (List.mem_cons_of_mem c member)
    rw [List.utf8Encode_cons, ByteArray.size_append, rest, List.utf8Encode_singleton]
    simp [first, Nat.add_comm]

/-- The ranges a letter or a digit may lie in. -/
theorem ascii_of_isAlphanum {c : Char} (alphanum : c.isAlphanum = true) : c.val ≤ 127 := by
  have ranges : c.isAlphanum =
      ((decide (c.val ≥ 'A'.val ∧ c.val ≤ 'Z'.val) ||
        decide (c.val ≥ 'a'.val) && decide (c.val ≤ 'z'.val)) ||
      decide (c.val ≥ '0'.val) && decide (c.val ≤ '9'.val)) := rfl
  simp only [ranges, Bool.or_eq_true, Bool.and_eq_true, decide_eq_true_eq] at alphanum
  rcases alphanum with (⟨-, top⟩ | ⟨-, top⟩) | ⟨-, top⟩ <;> exact UInt32.le_trans top (by decide)

theorem isSecret_ascii {secret : String} (shape : isSecret secret = true) :
    secret.length = 43 ∧ ∀ c ∈ secret.toList, c.utf8Size = 1 := by
  simp only [isSecret, Bool.and_eq_true, decide_eq_true_eq] at shape
  obtain ⟨⟨size, digits⟩, -⟩ := shape
  refine ⟨size, fun c member => Char.utf8Size_eq_one_iff.mpr ?_⟩
  -- letters, digits, a hyphen and an underscore each take one byte
  have base64 := List.all_eq_true.mp digits c member
  simp only [Bool.or_eq_true, decide_eq_true_eq] at base64
  rcases base64 with (alphanum | rfl) | rfl
  · exact ascii_of_isAlphanum alphanum
  · decide
  · decide

/-- bcrypt reads the whole of a key. -/
theorem plaintext_short {secret : String} (shape : isSecret secret = true) :
    (KEY_NAMESPACE ++ secret).utf8ByteSize < 72 := by
  obtain ⟨size, ascii⟩ := isSecret_ascii shape
  have bytes : secret.utf8ByteSize = 43 := by
    rw [← String.size_toByteArray, ← String.ofList_toList (s := secret),
      String.toByteArray_ofList, size_utf8Encode ascii, String.length_toList, size]
  rw [String.utf8ByteSize_append, bytes]
  decide

/-! ### Revocation -/

section Revocation

variable {i : Nat} {c : Cmd} {ch : Choice} {w w' : World} {res : Except AppError c.Res}

/-- The user's key is there and has been revoked. -/
def Revoked (w : World) (id userId : String) : Prop :=
  ∃ key ∈ w.apiKeys.rows, key.id = id ∧ key.userId = userId ∧ key.revokedAt ≠ none

/-- Nothing brings a revoked key back. -/
theorem Revoked.step {id userId : String} (revoked : Revoked w id userId)
    (returned : exec P i c ch w = some (res, w')) : Revoked w' id userId := by
  obtain ⟨key, member, rfl, rfl, gone⟩ := revoked
  -- the row stays, and no update takes the time of revocation away
  obtain ⟨key', member', becomes⟩ := (exec_keys returned).1 key member
  exact ⟨key', member', becomes.id, becomes.userId, becomes.stays gone⟩

/-- An update that met a live key of the user has revoked it. -/
theorem revoked_of_revokeApiKey {id userId : String} {now n : Nat}
    (returned : exec P i (.revokeApiKey id userId now) ch w = some (.ok n, w')) (hit : n ≠ 0) :
    Revoked w' id userId := by
  rcases exec_revokeApiKey returned with ⟨-, failed⟩ | ⟨count, rfl⟩
  · cases failed
  · cases count
    obtain ⟨key, member, live⟩ := List.countP_pos_iff.mp (Nat.pos_of_ne_zero hit)
    have mine := live
    simp only [Bool.and_eq_true, decide_eq_true_eq] at mine
    refine ⟨{ key with revokedAt := some now }, ?_, mine.1.1, mine.1.2, by simp⟩
    rw [World.mem_touchedKeys]
    exact ⟨key, member, if_pos live⟩

end Revocation

/-! ### The ring of keys -/

/-- Some thread made the key with this plaintext. -/
def HasPlaintext (σ : Shared (mikrouli P)) (id plaintext : String) : Prop :=
  ∃ j secret, MadeKey (σ.own j) id secret ∧ plaintext = KEY_NAMESPACE ++ secret

/-- The row is a key some thread made, with the hash of its plaintext. -/
def Genuine (σ : Shared (mikrouli P)) (key : ApiKey) : Prop :=
  ∃ j secret salt, MadeKey (σ.own j) key.id secret ∧
    key.keyHash = P.bcryptHash (KEY_NAMESPACE ++ secret) salt

/-- Where the keys come from, what lookups found and what revocations left: a secret belongs to
the one thread that drew it, which makes one key of it. -/
structure Keyring (σ : Shared (mikrouli P)) : Prop where
  drawn : ∀ j secret, .call .randomSecret (.ok secret) ∈ σ.own j →
    isSecret secret = true ∧ secret ∈ σ.world.drawn
  once : ∀ i j secret, .call .randomSecret (.ok secret) ∈ σ.own i →
    .call .randomSecret (.ok secret) ∈ σ.own j → i = j
  single : ∀ j u l h p u' l' h' p' key key', .call (.saveApiKey u l h p) (.ok key) ∈ σ.own j →
    .call (.saveApiKey u' l' h' p') (.ok key') ∈ σ.own j → key = key'
  rows : ∀ key ∈ σ.world.apiKeys.rows, Genuine σ key
  found : ∀ e ∈ σ.log, ∀ keyPrefix key,
    e.event = .call (.findLiveApiKey keyPrefix) (.ok (some key)) →
    key ∈ e.world.apiKeys.rows ∧ key.revokedAt = none ∧ Genuine σ key
  revoked : ∀ e ∈ σ.log, ∀ id userId now n, e.event = .call (.revokeApiKey id userId now) (.ok n) →
    n ≠ 0 → Revoked σ.world id userId

section Keyring

variable {σ σ' : Shared (mikrouli P)} {i : Nat} {c : Cmd} {ch : Choice} {w : World}
  {res : Except AppError c.Res}

theorem MadeKey.mono {es es' : Events P} (grows : ∀ e ∈ es, e ∈ es') {id secret : String}
    (made : MadeKey es id secret) : MadeKey es' id secret := by
  obtain ⟨drew, userId, label, salt, keyPrefix, key, saved, same⟩ := made
  exact ⟨grows _ drew, userId, label, salt, keyPrefix, key, grows _ saved, same⟩

theorem Genuine.mono (grows : ∀ j, ∀ e ∈ σ.own j, e ∈ σ'.own j) {key : ApiKey}
    (genuine : Genuine σ key) : Genuine σ' key := by
  obtain ⟨j, secret, salt, made, hash⟩ := genuine
  exact ⟨j, secret, salt, made.mono (grows j), hash⟩

theorem Genuine.becomes {key key' : ApiKey} (becomes : key.Becomes key')
    (genuine : Genuine σ key) : Genuine σ key' := by
  obtain ⟨j, secret, salt, made, hash⟩ := genuine
  exact ⟨j, secret, salt, by rw [becomes.id]; exact made, becomes.keyHash.trans hash⟩

theorem Keyring.called (ring : Keyring σ) (step : KeyStep P (σ.own i) c)
    (returned : exec P i c ch σ.world = some (res, w)) : Keyring (σ.called i c res w) := by
  have grows : ∀ j, ∀ e ∈ σ.own j, e ∈ (σ.called i c res w).own j :=
    fun j e member => Shared.mem_own_called.mpr (.inr member)
  constructor
  case drawn =>
    intro j secret drew
    rcases Shared.mem_own_called.mp drew with ⟨-, event⟩ | old
    · cases event
      obtain ⟨_, ⟨⟩, shape, -, rfl⟩ := exec_randomSecret returned
      exact ⟨shape, List.mem_cons_self⟩
    · obtain ⟨shape, used⟩ := ring.drawn j secret old
      exact ⟨shape, (exec_frame returned).drawn used⟩
  case once =>
    -- what has just been drawn no thread had drawn before
    have fresh : ∀ j secret, (.call c res : Event (mikrouli P)) = .call .randomSecret (.ok secret) →
        .call .randomSecret (.ok secret) ∉ σ.own j := by
      intro j secret event old
      cases event
      obtain ⟨_, ⟨⟩, -, unused, -⟩ := exec_randomSecret returned
      exact unused (ring.drawn j secret old).2
    intro j j' secret drew drew'
    rcases Shared.mem_own_called.mp drew with ⟨rfl, event⟩ | old <;>
      rcases Shared.mem_own_called.mp drew' with ⟨rfl, event'⟩ | old'
    · rfl
    · exact absurd old' (fresh j' secret event.symm)
    · exact absurd old (fresh j secret event'.symm)
    · exact ring.once j j' secret old old'
  case single =>
    have first : ∀ u l h p key u' l' h' p' key',
        (.call c res : Event (mikrouli P)) = .call (.saveApiKey u l h p) (.ok key) →
        .call (.saveApiKey u' l' h' p') (.ok key') ∉ σ.own i := by
      intro u l h p key u' l' h' p' key' event
      cases event
      exact step.2.1 u' l' h' p' _
    intro j u l h p u' l' h' p' key key' saved saved'
    rcases Shared.mem_own_called.mp saved with ⟨rfl, event⟩ | old <;>
      rcases Shared.mem_own_called.mp saved' with ⟨mine, event'⟩ | old'
    · cases event.trans event'.symm
      rfl
    · exact absurd old' (first u l h p key u' l' h' p' key' event.symm)
    · subst mine
      exact absurd old (first u' l' h' p' key' u l h p key event'.symm)
    · exact ring.single j u l h p u' l' h' p' key key' old old'
  case rows =>
    intro key member
    -- an old key is still genuine; a new one is the thread's that drew its secret
    rcases (exec_keys returned).2 key member with ⟨key₀, old, becomes⟩ | ⟨u, l, p, rfl, event⟩
    · exact ((ring.rows key₀ old).mono grows).becomes becomes
    · obtain ⟨-, -, -, secret, salt, drew, hash⟩ := step
      refine ⟨i, secret, salt, ⟨grows i _ drew, u, l, salt, p, key, ?_, rfl⟩, hash⟩
      rw [← hash]
      exact Shared.mem_own_called.mpr (.inl ⟨rfl, event.symm⟩)
  case found =>
    intro e logged keyPrefix key event
    rcases List.mem_cons.mp logged with rfl | old
    · cases event
      obtain ⟨rfl, found⟩ := exec_findLiveApiKey returned
      obtain ⟨member, live⟩ := found key rfl
      exact ⟨member, live, (ring.rows key member).mono grows⟩
    · obtain ⟨member, live, genuine⟩ := ring.found e old keyPrefix key event
      exact ⟨member, live, genuine.mono grows⟩
  case revoked =>
    intro e logged id userId now n event hit
    rcases List.mem_cons.mp logged with rfl | old
    · cases event
      -- the UPDATE hit a live key of the user
      exact revoked_of_revokeApiKey returned hit
    · exact (ring.revoked e old id userId now n event hit).step returned

theorem Keyring.started (ring : Keyring σ) (n : Nat) (r : Req) : Keyring (σ.started n r) := by
  have grows : ∀ j, ∀ e ∈ σ.own j, e ∈ (σ.started n r).own j :=
    fun j e member => Shared.mem_own_started.mpr (.inr member)
  constructor
  case drawn => exact fun j secret drew => ring.drawn j secret (Shared.call_mem_own_started.mp drew)
  case once =>
    intro i j secret drew drew'
    exact ring.once i j secret (Shared.call_mem_own_started.mp drew)
      (Shared.call_mem_own_started.mp drew')
  case single =>
    intro j u l h p u' l' h' p' key key' saved saved'
    exact ring.single j u l h p u' l' h' p' key key' (Shared.call_mem_own_started.mp saved)
      (Shared.call_mem_own_started.mp saved')
  case rows => exact fun key member => (ring.rows key member).mono grows
  case found =>
    intro e logged keyPrefix key event
    rcases List.mem_cons.mp logged with rfl | old
    · cases event
    · obtain ⟨member, live, genuine⟩ := ring.found e old keyPrefix key event
      exact ⟨member, live, genuine.mono grows⟩
  case revoked =>
    intro e logged id userId now n event hit
    rcases List.mem_cons.mp logged with rfl | old
    · cases event
    · exact ring.revoked e old id userId now n event hit

theorem Keyring.acts {G : Guard (mikrouli P)} (ring : Keyring σ)
    (acts : (apiKeys P).Acts G σ σ') : Keyring σ' := by
  cases acts with
  | start n r _ _ => exact ring.started n r
  | call pre returned _ => exact ring.called pre returned
  | env ms _ =>
    exact ⟨ring.drawn, ring.once, ring.single, ring.rows, ring.found, ring.revoked⟩

theorem keyring_initial {w₀ : World} (empty : w₀.apiKeys.rows = []) :
    Keyring (P := P) ⟨w₀, []⟩ := by
  constructor
  case rows =>
    intro key member
    rw [show w₀.apiKeys.rows = [] from empty] at member
    cases member
  all_goals simp [Shared.own]

/-- The key a plaintext belongs to. -/
theorem Keyring.id_unique (ring : Keyring σ) {id id' plaintext : String}
    (first : HasPlaintext σ id plaintext) (second : HasPlaintext σ id' plaintext) : id = id' := by
  obtain ⟨j, secret, ⟨drew, u, l, salt, p, key, saved, rfl⟩, rfl⟩ := first
  obtain ⟨j', secret', ⟨drew', u', l', salt', p', key', saved', rfl⟩, same⟩ := second
  -- the namespace is the same, so the secrets are
  have secrets : secret = secret' := by
    rw [← String.toList_inj, String.toList_append, String.toList_append] at same
    exact String.toList_inj.mp (List.append_cancel_left same)
  subst secrets
  have threads : j = j' := ring.once j j' secret drew drew'
  subst threads
  exact congrArg ApiKey.id (ring.single j _ _ _ _ _ _ _ _ key key' saved saved')

/-- From the revocation of a key on: it stays revoked, also in every world a later request left. -/
structure Dead (n : Nat) (id userId : String) (σ : Shared (mikrouli P)) : Prop where
  now : Revoked σ.world id userId
  since : ∀ e ∈ σ.log, n ≤ e.thread → Revoked e.world id userId

theorem Dead.acts {C : Contract (mikrouli P)} {G : Guard (mikrouli P)} {n : Nat} {id userId : String}
    (acts : C.Acts G σ σ') (dead : Dead n id userId σ) : Dead n id userId σ' := by
  cases acts with
  | start m r _ _ =>
    refine ⟨dead.now, fun e logged later => ?_⟩
    rcases List.mem_cons.mp logged with rfl | old
    · exact dead.now
    · exact dead.since e old later
  | call _ returned _ =>
    -- every world after the revocation has the key revoked
    have still := dead.now.step returned
    refine ⟨still, fun e logged later => ?_⟩
    rcases List.mem_cons.mp logged with rfl | old
    · exact still
    · exact dead.since e old later
  | env ms _ => exact ⟨dead.now, dead.since⟩

end Keyring

/-! ### Soundness -/

section Soundness

variable {w₀ : World} {c : Config (mikrouli P)} {i : Nat}

theorem keys_holds (reach : Reach anyStep (initial w₀) c) : (apiKeys P).Holds anyStep c :=
  (Contract.ofHistory_holds w₀).reach apiKeys_sound reach

theorem keyring_reach (empty : w₀.apiKeys.rows = []) (reach : Reach anyStep (initial w₀) c) :
    Keyring c.shared :=
  (Contract.ofHistory_holds w₀).invariant apiKeys_sound (fun _ _ _ acts ring => ring.acts acts)
    (keyring_initial empty) reach

/-- The plaintext that answers a creation is the key's. -/
theorem hasPlaintext_of_answered (reach : Reach anyStep (initial w₀) c) {userId label : String}
    {key : CreatedApiKey} (answered : c.Answered i (.createKey userId label) (.key key)) :
    HasPlaintext c.shared key.id key.key := by
  obtain ⟨-, key', secret, same, made, plaintext⟩ := (keys_holds reach).history_ok answered
  cases same
  exact ⟨i, secret, made, plaintext⟩

/-- A validation that names a user found a live key of the user with the plaintext. -/
theorem lookup_of_answered
    (bcrypt : ∀ password stored salt,
      P.bcryptCompare password (P.bcryptHash stored salt) = true →
      bcryptInput stored = bcryptInput password)
    (empty : w₀.apiKeys.rows = []) (reach : Reach anyStep (initial w₀) c)
    {plaintext userId : String}
    (answered : c.Answered i (.validateKey plaintext) (.owner (some userId))) :
    ∃ e ∈ c.shared.log, e.thread = i ∧ ∃ keyPrefix key,
      e.event = .call (.findLiveApiKey keyPrefix) (.ok (some key)) ∧
      key ∈ e.world.apiKeys.rows ∧ key.revokedAt = none ∧ key.userId = userId ∧
      HasPlaintext c.shared key.id plaintext := by
  have ring := keyring_reach empty reach
  obtain ⟨owner, same, lookup⟩ := (keys_holds reach).history_ok answered
  cases same
  obtain ⟨keyPrefix, key, found, matched, owned⟩ := lookup userId rfl
  obtain ⟨e, logged, mine, event⟩ := Shared.mem_log_of_mem_own found
  obtain ⟨member, live, j, secret, salt, made, hash⟩ := ring.found e logged keyPrefix key event
  refine ⟨e, logged, mine, keyPrefix, key, event, member, live, owned, j, secret, made, ?_⟩
  -- bcrypt compared with the hash of the plaintext, all of which it reads
  rw [hash] at matched
  exact eq_of_bcryptInput (plaintext_short (ring.drawn j secret made.1).1)
    (bcrypt plaintext (KEY_NAMESPACE ++ secret) salt matched)

theorem revoked_of_answered (empty : w₀.apiKeys.rows = []) (reach : Reach anyStep (initial w₀) c)
    {userId id : String} {a : Ans} (answered : c.Answered i (.revokeKey userId id) a) :
    Revoked c.shared.world id userId := by
  obtain ⟨now, n, revoked, hit⟩ := (keys_holds reach).history_ok answered
  obtain ⟨e, logged, -, event⟩ := Shared.mem_log_of_mem_own revoked
  exact (keyring_reach empty reach).revoked e logged id userId now n event hit

/-- Between the answer to a revocation and a later request's answer, the key is revoked. -/
theorem dead_of_answered (empty : w₀.apiKeys.rows = []) (reach : Reach anyStep (initial w₀) c)
    {userId id : String} {a : Ans} (answered : c.Answered i (.revokeKey userId id) a)
    {c' : Config (mikrouli P)} (later : Reach anyStep c c') :
    Dead c.threads.length id userId c'.shared := by
  refine (keys_holds reach).invariant apiKeys_sound (fun _ _ _ acts dead => dead.acts acts) ?_ later
  -- whatever is in the log by then belongs to an earlier request
  refine ⟨revoked_of_answered empty reach answered, fun e logged new => ?_⟩
  have old := (keys_holds reach).logged e logged
  omega

/-- A thread asked to revoke a key of another user leaves the keys as they are. -/
theorem rows_of_foreign_revoke (reach : Reach anyStep (initial w₀) c) {userId id : String}
    (foreign : ∀ key ∈ c.shared.world.apiKeys.rows, key.id = id → key.userId ≠ userId)
    {cmd : Cmd} {k : Except AppError cmd.Res → Prog Ans} {ch : Choice}
    {res : Except AppError cmd.Res} {w : World}
    (thread : c.threads[i]? = some (.revokeKey userId id, .await cmd k))
    (returned : exec P i cmd ch c.shared.world = some (res, w)) :
    w.apiKeys.rows = c.shared.world.apiKeys.rows := by
  have asked : c.Asked i (.revokeKey userId id) := ⟨_, thread⟩
  -- the request is the thread's only one, so of all writers it can only be the UPDATE
  have only : ∀ r, .start r ∈ c.shared.own i → r = .revokeKey userId id := fun r started =>
    ((asked_iff_started reach i r).mpr started).unique asked
  have step : KeyStep P (c.shared.own i) cmd := (keys_holds reach).pre ⟨_, k, thread⟩
  cases cmd with
  | saveApiKey u l h p => cases only _ step.1
  | touchApiKey id' now =>
    obtain ⟨plaintext, started⟩ := step
    cases only _ started
  | revokeApiKey id' u now =>
    cases only _ step
    rcases exec_revokeApiKey returned with ⟨rfl, -⟩ | ⟨-, rfl⟩
    · rfl
    -- the UPDATE asks for the id and the user, and no row has both
    · refine Table.rows_update_of_none (by simp) fun key member => ?_
      by_cases same : key.id = id
      · simp [foreign key member same]
      · simp [same]
  | _ => rw [(exec_frame returned).apiKeys rfl]

/-- API keys are sound and can be revoked, whatever runs in between: a validation names a user
only if it found a live key of theirs with the plaintext; one that starts after a revocation has
been answered refuses the key; and the revocation of another user's key is never answered with
success and changes no row. -/
theorem keys_sound
    (bcrypt : ∀ password stored salt,
      P.bcryptCompare password (P.bcryptHash stored salt) = true →
      bcryptInput stored = bcryptInput password)
    (empty : w₀.apiKeys.rows = []) (reach : Reach anyStep (initial w₀) c) :
    (∀ i plaintext userId, c.Answered i (.validateKey plaintext) (.owner (some userId)) →
      ∃ e ∈ c.shared.log, e.thread = i ∧ ∃ keyPrefix key,
        e.event = .call (.findLiveApiKey keyPrefix) (.ok (some key)) ∧
        key ∈ e.world.apiKeys.rows ∧ key.revokedAt = none ∧ key.userId = userId ∧
        HasPlaintext c.shared key.id plaintext) ∧
    (∀ i userId id a c', c.Answered i (.revokeKey userId id) a → Reach anyStep c c' →
      ∀ j plaintext b, c.threads.length ≤ j → HasPlaintext c'.shared id plaintext →
        c'.Answered j (.validateKey plaintext) b → b = .owner none) ∧
    ∀ key ∈ c.shared.world.apiKeys.rows, ∀ userId, key.userId ≠ userId → ∀ i,
      (∀ a, ¬c.Answered i (.revokeKey userId key.id) a) ∧
      ∀ cmd k ch res w, c.threads[i]? = some (.revokeKey userId key.id, .await cmd k) →
        exec P i cmd ch c.shared.world = some (res, w) →
        w.apiKeys.rows = c.shared.world.apiKeys.rows := by
  refine ⟨fun i plaintext userId => lookup_of_answered bcrypt empty reach, ?_, ?_⟩
  · intro i userId id a c' revoked later j plaintext b new named answered
    have reach' := reach.trans later
    obtain ⟨owner, rfl, -⟩ := (keys_holds reach').history_ok answered
    cases owner with
    | none => rfl
    | some userId' =>
      -- the key that was found live is the one that had been revoked
      obtain ⟨e, logged, mine, keyPrefix, key, -, member, live, -, named'⟩ :=
        lookup_of_answered bcrypt empty reach' answered
      have dead := dead_of_answered empty reach revoked later
      obtain ⟨key', member', same, -, gone⟩ := dead.since e logged (by omega)
      have ids : key'.id = key.id := by
        rw [same]
        exact (keyring_reach empty reach').id_unique named named'
      have keys : key' = key := Table.eq_of_key (k := ApiKey.id) (by simp) member' member ids
      rw [keys] at gone
      exact absurd live gone
  · intro key member userId other i
    constructor
    · intro a answered
      obtain ⟨key', member', same, owned, -⟩ := revoked_of_answered empty reach answered
      have keys : key' = key := Table.eq_of_key (k := ApiKey.id) (by simp) member' member same
      rw [keys] at owned
      exact other owned
    · intro cmd k ch res w thread returned
      refine rows_of_foreign_revoke reach (fun key' member' same => ?_) thread returned
      have keys : key' = key := Table.eq_of_key (k := ApiKey.id) (by simp) member' member same
      rw [keys]
      exact other

end Soundness

/-! ### A concrete run -/

def keyHolder : World := { World.empty 5000 with
  users := ⟨[⟨⟨"u", "u@ab.cd", none, none, none, 0⟩, none⟩], by simp⟩ }

def keySecret : String := "abcdefghijklmnopqrstuvwxyzABCDEFGHIJKLMNOPQ"

/-- A key is created, validated and revoked by its user. -/
def createValidateRevoke : List (Move (mikrouli Platform.plain)) :=
  [.start (.createKey "u" "laptop"), .run 0 {}, .run 0 {}, .run 0 {}, .run 0 { draw := keySecret },
   .run 0 { draw := "salt" }, .run 0 { draw := "key" },
   .start (.validateKey (KEY_NAMESPACE ++ keySecret)),
   .run 1 { pick := some ⟨"key", "u", "laptop",
     Platform.plain.bcryptHash (KEY_NAMESPACE ++ keySecret) "salt", "abcdefgh", 5000, none, none⟩ },
   .run 1 {}, .run 1 {}, .start (.revokeKey "u" "key"), .run 2 {}, .run 2 {}]

/-- The key is presented once more. -/
def validateAgain : List (Move (mikrouli Platform.plain)) :=
  [.start (.validateKey (KEY_NAMESPACE ++ keySecret)), .run 3 {}]

def createdKey : CreatedApiKey :=
  ⟨"key", "laptop", KEY_NAMESPACE ++ keySecret, "abcdefgh", 5000⟩

theorem keys_sound_revoked :
    ∃ c c' : Config (mikrouli Platform.plain),
      c.Answered 1 (.validateKey (KEY_NAMESPACE ++ keySecret)) (.owner (some "u")) ∧
      (∃ e ∈ c.shared.log, e.thread = 1 ∧ ∃ key ∈ e.world.apiKeys.rows,
        key.revokedAt = none ∧ key.userId = "u") ∧
      c.Answered 2 (.revokeKey "u" "key") .noContent ∧ Reach anyStep c c' ∧
      ∃ b, c'.Answered 3 (.validateKey (KEY_NAMESPACE ++ keySecret)) b ∧ b = .owner none := by
  obtain ⟨c, reach, passed⟩ := exists_reach_of_play anyStep_of_anyReady
    (initial (V := mikrouli Platform.plain) keyHolder) createValidateRevoke
    (fun c => decide (c.threads.length = 3) &&
      decide (c.answer? 1 =
        some (.validateKey (KEY_NAMESPACE ++ keySecret), .owner (some "u"))) &&
      decide (c.answer? 2 = some (.revokeKey "u" "key", .noContent)) &&
      ((c.play anyReady validateAgain).any fun c' : Config (mikrouli Platform.plain) =>
        decide (c'.answer? 0 = some (.createKey "u" "laptop", .key createdKey)) &&
        decide (c'.answer? 3 = some (.validateKey (KEY_NAMESPACE ++ keySecret), .owner none))))
    (by decide +kernel)
  simp only [Bool.and_eq_true, decide_eq_true_eq] at passed
  obtain ⟨⟨⟨size, validated⟩, revoked⟩, again⟩ := passed
  obtain ⟨c', later, passed'⟩ := exists_reach_of_play anyStep_of_anyReady _ _ _ again
  simp only [Bool.and_eq_true, decide_eq_true_eq] at passed'
  obtain ⟨created, refused⟩ := passed'
  have sound := keys_sound Platform.plain_bcryptCompare rfl reach
  have named := hasPlaintext_of_answered (reach.trans later) (answered_of_answer? created)
  have validated := answered_of_answer? validated
  have revoked := answered_of_answer? revoked
  have refused := answered_of_answer? refused
  obtain ⟨e, logged, mine, _, key, -, member, live, owned, -⟩ := sound.1 1 _ _ validated
  exact ⟨c, c', validated, ⟨e, logged, mine, key, member, live, owned⟩, revoked, later, _, refused,
    sound.2.1 2 _ _ _ c' revoked later 3 _ _ (le_of_eq size) named refused⟩

end Mikrouli
