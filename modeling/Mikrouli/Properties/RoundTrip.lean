import Mikrouli.Properties.Alone
import Mikrouli.Properties.ApiKeys

/-! A key's way back: what is stored of a key when it is created, and which row a validation of its
plaintext gets to compare. -/

namespace Mikrouli

open Async Store

variable {P : Platform}

/-! ### Prefixes -/

/-- A validation looks a key up by the prefix its creation has cut. -/
theorem parsePrefix_plaintext (secret : String) :
    ApiKeysService.parsePrefix (KEY_NAMESPACE ++ secret) = slice secret 0 KEY_PREFIX_LENGTH := by
  have units : codeUnits (KEY_NAMESPACE ++ secret) =
      [.whole 'm', .whole 'k', .whole '_'] ++ codeUnits secret := by
    simp [codeUnits, KEY_NAMESPACE, String.toList_append]
  rw [ApiKeysService.parsePrefix, slice, slice, units]
  rfl

/-! ### Creation -/

/-- A key is saved for the user who asked for it, under the prefix of the secret that was drawn. -/
def MintStep (P : Platform) (es : Events P) : Cmd → Prop
  | .saveApiKey userId label keyHash keyPrefix => .start (.createKey userId label) ∈ es ∧
      ∃ secret salt, .call .randomSecret (.ok secret) ∈ es ∧
        keyHash = P.bcryptHash (KEY_NAMESPACE ++ secret) salt ∧
        keyPrefix = slice secret 0 KEY_PREFIX_LENGTH
  | _ => True

def mint (P : Platform) : Contract (mikrouli P) := .ofHistory (MintStep P) fun _ _ _ => True

def Cmd.saves : Cmd → Prop
  | .saveApiKey _ _ _ _ => True
  | _ => False

theorem mintStep_of_not_saves {es : Events P} {c : Cmd} (other : ¬c.saves) : MintStep P es c := by
  cases c with
  | saveApiKey u l h p => exact absurd trivial other
  | _ => trivial

/-- A program that saves no key forgets nothing of what the thread has done. -/
theorem saveless_along {α : Type} {p : Prog α} {es : Events P} {e : Event (mikrouli P)}
    (only : Prog.Only (fun c : Cmd => ¬c.saves) p) (started : e ∈ es) :
    Along (MintStep P) (fun es' _ => e ∈ es') p es := by
  refine Along.of_only (K := fun es' => e ∈ es') only ?_ (fun _ _ started => started) started
  exact fun es' c other started =>
    ⟨mintStep_of_not_saves other, fun _ _ => List.mem_cons_of_mem _ started⟩

theorem createForUser_mints {userId label : String} :
    Along (V := mikrouli P) (MintStep P) (fun _ _ => True)
      (ApiKeysService.createForUser P userId label) [.start (.createKey userId label)] := by
  apply Along.bind
  have counts : Prog.Only (fun c : Cmd => ¬c.saves) (UsageService.countKeysThisMonth userId) :=
    .bind (.perform id) fun _ => .perform id
  refine (saveless_along counts List.mem_cons_self).mono fun es₁ r started => ?_
  cases r with
  | error e => trivial
  | ok n =>
    apply Along.bind
    have reads : Prog.Only (fun c : Cmd => ¬c.saves) (UsageService.getKeyLimit P userId) :=
      .bind (only_findOneOrFail id) fun _ => trivial
    refine (saveless_along reads started).mono fun es₂ r started => ?_
    cases r with
    | error e => trivial
    | ok limit =>
      simp only
      split
      · trivial
      · apply Along.bind
        apply Along.bind
        apply await_along trivial
        intro drawn i ch w w' returned
        -- past the gate: a secret, its hash, and the row under its prefix
        obtain ⟨secret, rfl, -, -⟩ := exec_randomSecret returned
        apply Along.bind
        apply await_along trivial
        intro hashed i ch w₁ w' returned
        obtain ⟨-, salt, rfl⟩ := exec_bcryptHash returned
        apply Along.bind
        apply await_along
        · exact ⟨.tail _ (.tail _ started), secret, salt, by simp, rfl, rfl⟩
        · intro saved i ch w₂ w' _
          cases saved <;> trivial

theorem serve_mints (r : Req) :
    Along (V := mikrouli P) (MintStep P) (fun _ _ => True) (serve P r) [.start r] := by
  by_cases creates : ∃ userId label, r = .createKey userId label
  · obtain ⟨userId, label, rfl⟩ := creates
    exact .map createForUser_mints
  · refine (saveless_along ((serve_only P r).mono fun c may => ?_) List.mem_cons_self).mono
      fun _ _ _ => trivial
    intro saves
    cases c with
    | saveApiKey u l h p =>
      cases r with
      | createKey userId label => exact creates ⟨userId, label, rfl⟩
      | _ => cases may
    | _ => cases saves

theorem mint_sound {G : Guard (mikrouli P)} : (mint P).Sound G :=
  Contract.ofHistory_sound serve_mints

/-! ### Rows -/

/-- The table has a key with this id, owner, hash and prefix. -/
def HasKey (w : World) (id userId keyHash keyPrefix : String) : Prop :=
  ∃ row ∈ w.apiKeys.rows, row.id = id ∧ row.userId = userId ∧ row.keyHash = keyHash ∧
    row.keyPrefix = keyPrefix

section Rows

variable {i : Nat} {c : Cmd} {ch : Choice} {w w' : World} {res : Except AppError c.Res}
  {id userId keyHash keyPrefix : String}

theorem HasKey.touched {p : ApiKey → Bool} {f : ApiKey → ApiKey} {kept : ∀ k, (f k).id = k.id}
    (same : ∀ k, (f k).userId = k.userId ∧ (f k).keyHash = k.keyHash ∧
      (f k).keyPrefix = k.keyPrefix) (stored : HasKey w id userId keyHash keyPrefix) :
    HasKey { w with apiKeys := w.touchedKeys p f kept } id userId keyHash keyPrefix := by
  obtain ⟨row, member, rfl, rfl, rfl, rfl⟩ := stored
  refine ⟨_, (World.mem_touchedKeys kept).mpr ⟨row, member, rfl⟩, ?_⟩
  split
  · exact ⟨kept row, same row⟩
  · exact ⟨rfl, rfl, rfl, rfl⟩

/-- Times of use and of revocation are all that changes of a key. -/
theorem HasKey.step (stored : HasKey w id userId keyHash keyPrefix)
    (returned : exec P i c ch w = some (res, w')) : HasKey w' id userId keyHash keyPrefix := by
  cases c with
  | saveApiKey u l h p =>
    obtain ⟨row, member, same⟩ := stored
    rcases exec_saveApiKey returned with ⟨unchanged, -⟩ | ⟨key, keys, -, inserted, after, -, -⟩
    · exact ⟨row, unchanged ▸ member, same⟩
    · refine ⟨row, ?_, same⟩
      rw [after, (Table.insert?_eq_some.mp inserted).2]
      exact List.mem_cons_of_mem _ member
  | revokeApiKey id' u now =>
    rcases exec_revokeApiKey returned with ⟨rfl, -⟩ | ⟨-, rfl⟩
    · exact stored
    -- a revocation sets a time
    · exact stored.touched fun _ => ⟨rfl, rfl, rfl⟩
  | touchApiKey id' now =>
    rcases exec_touchApiKey returned with ⟨rfl, -⟩ | ⟨-, rfl⟩
    · exact stored
    · exact stored.touched fun _ => ⟨rfl, rfl, rfl⟩
  | _ =>
    rw [HasKey, (exec_frame returned).apiKeys rfl]
    exact stored

theorem stored_of_saveApiKey {label : String} {key : ApiKey}
    (returned : exec P i (.saveApiKey userId label keyHash keyPrefix) ch w = some (.ok key, w')) :
    HasKey w' key.id userId keyHash keyPrefix := by
  rcases exec_saveApiKey returned with ⟨-, failed | ⟨failed, -⟩⟩ | ⟨key', keys, same, inserted, after, row, -⟩
  · cases failed
  · cases failed
  · cases same
    refine ⟨key, ?_, rfl, by rw [row], by rw [row], by rw [row]⟩
    rw [after, (Table.insert?_eq_some.mp inserted).2]
    exact List.mem_cons_self

end Rows

/-- Every key that was saved is still there, as its thread saved it. -/
def Minted (σ : Shared (mikrouli P)) : Prop :=
  ∀ j userId label keyHash keyPrefix key,
    .call (.saveApiKey userId label keyHash keyPrefix) (.ok key) ∈ σ.own j →
    MintStep P (σ.own j) (.saveApiKey userId label keyHash keyPrefix) ∧
      HasKey σ.world key.id userId keyHash keyPrefix

section Minted

variable {σ σ' : Shared (mikrouli P)}

theorem MintStep.mono {es es' : Events P} {c : Cmd} (grows : ∀ e ∈ es, e ∈ es')
    (step : MintStep P es c) : MintStep P es' c := by
  cases c with
  | saveApiKey u l h p =>
    obtain ⟨started, secret, salt, drew, cut⟩ := step
    exact ⟨grows _ started, secret, salt, grows _ drew, cut⟩
  | _ => trivial

theorem Minted.acts {G : Guard (mikrouli P)} (minted : Minted σ) (acts : (mint P).Acts G σ σ') :
    Minted σ' := by
  intro j userId label keyHash keyPrefix key saved
  cases acts with
  | start n r _ _ =>
    obtain ⟨step, stored⟩ := minted j _ _ _ _ _ (Shared.call_mem_own_started.mp saved)
    exact ⟨step.mono fun e member => Shared.mem_own_started.mpr (.inr member), stored⟩
  | @call i c ch res w pre returned _ =>
    have grows : ∀ e ∈ σ.own j, e ∈ (σ.called i c res w).own j :=
      fun e member => Shared.mem_own_called.mpr (.inr member)
    rcases Shared.mem_own_called.mp saved with ⟨rfl, event⟩ | old
    · cases event
      exact ⟨MintStep.mono grows pre, stored_of_saveApiKey returned⟩
    · obtain ⟨step, stored⟩ := minted j _ _ _ _ _ old
      exact ⟨step.mono grows, stored.step returned⟩
  | env ms _ => exact minted j _ _ _ _ _ saved

end Minted

/-! ### Validation -/

/-- A request on its own whose lookup of a key does not fail; anything else of it may. -/
abbrev lookingUp (P : Platform) : Setting (machine P) where
  allow c ch _ := ∀ keyPrefix, c = .findLiveApiKey keyPrefix → ch.fault = none
  drift w w' := ∃ ms, w' = w.advance ms

/-- A validation of the text answers the user, whichever row its lookup gets. -/
structure RoundTrips (P : Platform) (w : World) (plaintext userId : String) : Prop where
  answers : ∀ i r w', Runs (machine P) (lookingUp P) i (ApiKeysService.validate P plaintext) w r w' →
    r = .ok (some userId)
  ends : ∃ i r w', Runs (machine P) (lookingUp P) i (ApiKeysService.validate P plaintext) w r w'

section Validation

variable {w : World} {i : Nat} {plaintext : String}

/-- A live key that a validation of the text may get. -/
def Candidate (w : World) (plaintext : String) (row : ApiKey) : Prop :=
  row ∈ w.apiKeys.rows ∧ row.revokedAt = none ∧
    bpchar row.keyPrefix = bpchar (ApiKeysService.parsePrefix plaintext)

/-- The lookup gets a candidate if there is any. -/
theorem candidate_of_lookup {ch : Choice} {w' : World} {res : Except AppError (Option ApiKey)}
    (working : ch.fault = none)
    (returned : exec P i (.findLiveApiKey (ApiKeysService.parsePrefix plaintext)) ch w =
      some (res, w')) :
    (∃ row, res = .ok (some row) ∧ Candidate w plaintext row) ∨
      (res = .ok none ∧ ∀ row, ¬Candidate w plaintext row) := by
  simp only [exec, working, Option.isSome_none, Bool.false_eq_true, ↓reduceIte] at returned
  split at returned
  next row _ =>
    split at returned
    next hit =>
      cases returned
      rw [Bool.and_eq_true, decide_eq_true_eq, decide_eq_true_eq] at hit
      -- any live row with the prefix may be the answer
      exact .inl ⟨row, rfl, hit.1, hit.2.2, hit.2.1⟩
    · cases returned
  next =>
    split at returned
    · cases returned
    next missed =>
      cases returned
      -- and none is one only if there is none
      refine .inr ⟨rfl, fun row candidate => missed (List.any_eq_true.mpr ⟨row, candidate.1, ?_⟩)⟩
      rw [Bool.and_eq_true, decide_eq_true_eq, decide_eq_true_eq]
      exact ⟨candidate.2.2, candidate.2.1⟩

/-- Any candidate may be the one the lookup gets. -/
theorem lookup_of_candidate {row : ApiKey} (candidate : Candidate w plaintext row) :
    exec P i (.findLiveApiKey (ApiKeysService.parsePrefix plaintext)) { pick := some row } w =
      some (.ok (some row), w) := by
  obtain ⟨member, live, same⟩ := candidate
  simp [exec, member, live, same]

theorem markUsed_always {id : String} :
    Always (machine P) (lookingUp P) i (fun r _ => r = .ok ()) (ApiKeysService.markUsed id) w := by
  apply Always.tryCatch
  apply Always.bind
  apply Always.perform
  intro w₀ _ ch res w₁ _ returned
  obtain ⟨-, rfl⟩ := exec_dateNow returned
  apply Always.perform
  intro w₂ _ ch' res' w₃ _ _
  -- a failure is only logged
  cases res' with
  | ok a => rfl
  | error e => rfl

/-- Where the only candidate is a key whose hash is that of the text, its owner is answered. -/
theorem validate_of_alone {key : ApiKey} (candidate : Candidate w plaintext key)
    (alone : ∀ row, Candidate w plaintext row → row = key)
    (accepted : P.bcryptCompare plaintext key.keyHash = true) :
    Always (machine P) (lookingUp P) i (fun r _ => r = .ok (some key.userId))
      (ApiKeysService.validate P plaintext) w := by
  apply Always.bind
  apply Always.perform
  rintro _ ⟨ms, rfl⟩ ch res w₁ working returned
  rcases candidate_of_lookup (working _ rfl) returned with ⟨row, rfl, found⟩ | ⟨-, none⟩
  · have same : row = key := alone row found
    subst same
    simp only [accepted]
    apply Always.bind
    refine markUsed_always.mono fun r w' marked => ?_
    subst marked
    rfl
  · exact absurd candidate (none key)

def Cmd.validates : Cmd → Prop
  | .dateNow | .findLiveApiKey _ | .touchApiKey _ _ => True
  | _ => False

theorem lookup_completes (keyPrefix : String) :
    ∃ ch res, ch.fault = none ∧ exec P i (.findLiveApiKey keyPrefix) ch w = some (res, w) := by
  by_cases found : ∃ row ∈ w.apiKeys.rows, bpchar row.keyPrefix = bpchar keyPrefix ∧ row.revokedAt = none
  · obtain ⟨row, member, hit⟩ := found
    exact ⟨{ pick := some row }, .ok (some row), rfl, by simp [exec, member, hit]⟩
  · refine ⟨{}, .ok none, rfl, ?_⟩
    push Not at found
    simp only [exec]
    simpa using found

/-- A validation can always come to its end. -/
theorem exists_keyValidation (i : Nat) (plaintext : String) (w : World) :
    ∃ r w', Runs (machine P) (lookingUp P) i (ApiKeysService.validate P plaintext) w r w' := by
  have only : Prog.Only Cmd.validates (ApiKeysService.validate P plaintext) :=
    only_validate trivial (fun _ => trivial) fun _ _ => trivial
  refine exists_runs (K := lookingUp P) only (fun w => ⟨0, rfl⟩)
    (fun c w validates (_ : True) => ?_) trivial
  cases c with
  | dateNow => exact ⟨{}, .ok w.now, w, fun _ other => (by cases other), by simp only [exec], trivial⟩
  | findLiveApiKey keyPrefix =>
    obtain ⟨ch, res, working, returned⟩ := lookup_completes (P := P) (i := i) (w := w) keyPrefix
    exact ⟨ch, res, w, fun _ _ => working, returned, trivial⟩
  | touchApiKey id now =>
    exact ⟨{}, .ok (), _, fun _ other => (by cases other), by simp only [exec]; rfl, trivial⟩
  | _ => cases validates

/-- Another candidate, whose hash is not that of the text, can make the validation refuse it. -/
theorem refused_of_candidate {row : ApiKey} (candidate : Candidate w plaintext row)
    (refused : P.bcryptCompare plaintext row.keyHash = false) :
    Runs (machine P) (lookingUp P) i (ApiKeysService.validate P plaintext) w (.ok none) w := by
  have rest : Runs (machine P) (lookingUp P) i
      (if P.bcryptCompare plaintext row.keyHash = false then pure none else do
        ApiKeysService.markUsed row.id
        pure (some row.userId)) w (.ok none) w := by
    rw [if_pos refused]
    exact Runs.done (M := machine P) none w
  exact .await ⟨0, rfl⟩ (fun _ _ => rfl) (lookup_of_candidate candidate) rest

end Validation

/-! ### The round trip -/

section RoundTrip

variable {w₀ : World} {c : Config (mikrouli P)} {i : Nat} {userId label : String}
  {key : CreatedApiKey}

theorem minted_reach (reach : Reach anyStep (initial w₀) c) : Minted c.shared := by
  refine (Contract.ofHistory_holds w₀).invariant (C := mint P) mint_sound
    (fun _ _ _ acts minted => minted.acts acts) ?_ reach
  intro j userId label keyHash keyPrefix key saved
  simp [initial, Shared.own] at saved

/-- A hash is of one plaintext only. -/
theorem plaintext_unique (bcrypt : Bcrypt P) {secret secret' salt salt' : String}
    (shape : isSecret secret = true)
    (same : P.bcryptHash (KEY_NAMESPACE ++ secret') salt' =
      P.bcryptHash (KEY_NAMESPACE ++ secret) salt) :
    KEY_NAMESPACE ++ secret' = KEY_NAMESPACE ++ secret := by
  have matched := (bcrypt.compare (KEY_NAMESPACE ++ secret') _ salt').mpr rfl
  -- both salts give one hash, so either text opens it
  rw [same] at matched
  exact eq_of_bcryptInput (plaintext_short shape) ((bcrypt.compare _ _ _).mp matched).symm

/-- A created key is in the table, under its owner and the prefix that its plaintext has. -/
theorem stored_of_answered
    (bcrypt : Bcrypt P) (empty : w₀.apiKeys.rows = []) (reach : Reach anyStep (initial w₀) c)
    (created : c.Answered i (.createKey userId label) (.key key)) :
    ∃ salt, HasKey c.shared.world key.id userId (P.bcryptHash key.key salt)
      (ApiKeysService.parsePrefix key.key) := by
  obtain ⟨-, key', secret, same, ⟨drew, u, l, salt, p, row, saved, ids⟩, plaintext⟩ :=
    (keys_holds reach).history_ok created
  cases same
  obtain ⟨⟨started, secret', salt', -, hash, cut⟩, stored⟩ :=
    minted_reach reach i u l _ p row saved
  have asked := ((asked_iff_started reach i _).mpr started).unique ⟨_, created⟩
  cases asked
  -- the thread drew the secret that the prefix was cut from
  have shape := ((keyring_reach empty reach).drawn i secret drew).1
  rw [cut, ← parsePrefix_plaintext, plaintext_unique bcrypt shape hash.symm] at stored
  rw [← ids, plaintext]
  exact ⟨salt, stored⟩

/-- A created key that has not been revoked validates for its owner exactly if it is the only live
key with its prefix. -/
theorem key_roundTrips_iff_alone
    (bcrypt : Bcrypt P) (empty : w₀.apiKeys.rows = []) (reach : Reach anyStep (initial w₀) c)
    (created : c.Answered i (.createKey userId label) (.key key))
    (live : ¬Revoked c.shared.world key.id userId) :
    RoundTrips P c.shared.world key.key userId ↔
      ∀ row, Candidate c.shared.world key.key row → row.id = key.id := by
  have ring := keyring_reach empty reach
  have named := hasPlaintext_of_answered reach created
  obtain ⟨salt, row, member, ids, rfl, hash, cut⟩ := stored_of_answered bcrypt empty reach created
  have mine : Candidate c.shared.world key.key row := by
    refine ⟨member, ?_, by rw [cut]⟩
    -- not revoked by its owner, so not revoked at all
    by_contra gone
    exact live ⟨row, member, ids, rfl, gone⟩
  constructor
  · intro trips other candidate
    by_contra another
    -- the other key has another plaintext, so its hash is refused
    have refused : P.bcryptCompare key.key other.keyHash = false := by
      rw [Bool.eq_false_iff]
      intro accepted
      obtain ⟨j, secret, salt', made, hash'⟩ := ring.rows other candidate.1
      rw [hash'] at accepted
      have same := eq_of_bcryptInput (plaintext_short (ring.drawn j secret made.1).1)
        ((bcrypt.compare _ _ _).mp accepted).symm
      exact another (ring.id_unique ⟨j, secret, made, same⟩ named)
    have wrong := trips.answers 0 _ _ (refused_of_candidate candidate refused)
    cases wrong
  · intro alone
    constructor
    -- the lookup has one row to get, the key itself
    · intro j r w' run
      refine (validate_of_alone mine (fun other candidate => ?_) ?_).runs run
      · exact Table.eq_of_key (k := ApiKey.id) (by simp) candidate.1 member
          ((alone other candidate).trans ids.symm)
      · rw [hash]
        exact (bcrypt.compare _ _ _).mpr rfl
    · exact ⟨0, exists_keyValidation 0 key.key c.shared.world⟩

end RoundTrip

/-! ### Concrete runs -/

/-- The key of `createValidateRevoke` before it is used. -/
theorem key_roundTrips_laptop :
    ∃ c : Config (mikrouli Platform.plain), Reach anyStep (initial keyHolder) c ∧
      c.Answered 0 (.createKey "u" "laptop") (.key createdKey) ∧
      RoundTrips Platform.plain c.shared.world createdKey.key "u" := by
  obtain ⟨c, reach, passed⟩ := exists_reach_of_play anyStep_of_anyReady
    (initial (V := mikrouli Platform.plain) keyHolder) (createValidateRevoke.take 7)
    (fun c => decide (c.answer? 0 = some (.createKey "u" "laptop", .key createdKey)) &&
      c.shared.world.apiKeys.rows.all fun row => decide (row.id = "key" ∧ row.revokedAt = none))
    (by decide +kernel)
  rw [Bool.and_eq_true, List.all_eq_true] at passed
  have created := answered_of_answer? (of_decide_eq_true passed.1)
  refine ⟨c, reach, created, ?_⟩
  refine (key_roundTrips_iff_alone Platform.plain_bcrypt rfl reach created ?_).mpr ?_
  · rintro ⟨row, member, -, -, gone⟩
    exact gone (of_decide_eq_true (passed.2 row member)).2
  · exact fun row candidate => (of_decide_eq_true (passed.2 row candidate.1)).1

/-- A second secret that starts like the first. -/
def likeSecret : String := "abcdefghABCDEFGHIJKLMNOPQabcdefghijklmnopqo"

def phoneKey : ApiKey :=
  ⟨"key2", "u", "phone", Platform.plain.bcryptHash (KEY_NAMESPACE ++ likeSecret) "pepper", "abcdefgh",
    5000, none, none⟩

/-- Two live keys have one prefix, and a validation of the first gets the second. -/
theorem key_of_shared_prefix :
    ∃ c : Config (mikrouli Platform.plain), Reach anyStep (initial keyHolder) c ∧
      c.Answered 0 (.createKey "u" "laptop") (.key createdKey) ∧
      ¬Revoked c.shared.world createdKey.id "u" ∧
      ¬RoundTrips Platform.plain c.shared.world createdKey.key "u" := by
  obtain ⟨c, reach, passed⟩ := exists_reach_of_play anyStep_of_anyReady
    (initial (V := mikrouli Platform.plain) keyHolder)
    (createValidateRevoke.take 7 ++
      [.start (.createKey "u" "phone"), .run 1 {}, .run 1 {}, .run 1 {},
       .run 1 { draw := likeSecret }, .run 1 { draw := "pepper" }, .run 1 { draw := "key2" }])
    (fun c => decide (c.answer? 0 = some (.createKey "u" "laptop", .key createdKey)) &&
      (c.shared.world.apiKeys.rows.all fun row => decide (row.revokedAt = none)) &&
      decide (phoneKey ∈ c.shared.world.apiKeys.rows))
    (by decide +kernel)
  rw [Bool.and_eq_true, Bool.and_eq_true, List.all_eq_true] at passed
  obtain ⟨⟨created, live⟩, second⟩ := passed
  refine ⟨c, reach, answered_of_answer? (of_decide_eq_true created), ?_, fun trips => ?_⟩
  · rintro ⟨row, member, -, -, gone⟩
    exact gone (of_decide_eq_true (live row member))
  · have candidate : Candidate c.shared.world createdKey.key phoneKey :=
      ⟨of_decide_eq_true second, rfl, by decide +kernel⟩
    have refused := refused_of_candidate (P := Platform.plain) (i := 0) candidate (by decide +kernel)
    have wrong := trips.answers _ _ _ refused
    cases wrong

end Mikrouli
