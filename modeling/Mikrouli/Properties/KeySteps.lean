import Mikrouli.Model.Commands
import Mikrouli.Model.Footprint

/-! What a thread that works on API keys has done before each of its commands, and when it ends,
read off its own events; and what a command may do to the keys there are. -/

namespace Mikrouli

open Async Store

variable {P : Platform}

/-! ### Events -/

/-- The thread read the clock at `t`, counted `n` keys of the user in the month of `t`, and then
the user's row. -/
structure Counted (es : Events P) (userId : String) (t n : Nat) (user : User) : Prop where
  clock : .call .dateNow (.ok t) ∈ es
  count : .call (.countKeys userId (getMonthBounds t).1 (getMonthBounds t).2) (.ok n) ∈ es
  found : .call (.findUserById userId) (.ok (some user)) ∈ es

/-- The thread counted fewer keys than the user may create. -/
def Admitted (P : Platform) (es : Events P) (userId : String) : Prop :=
  ∃ t n user, Counted es userId t n user ∧ (n : Int) < UsageService.resolveKeyLimit P user

/-- What a thread has done before it issues a command. -/
def KeyStep (P : Platform) (es : Events P) : Cmd → Prop
  | .saveApiKey userId label keyHash _ => .start (.createKey userId label) ∈ es ∧
      (∀ u l h p res, .call (.saveApiKey u l h p) res ∉ es) ∧ Admitted P es userId ∧
      ∃ secret salt, .call .randomSecret (.ok secret) ∈ es ∧
        keyHash = P.bcryptHash (KEY_NAMESPACE ++ secret) salt
  | .revokeApiKey id userId _ => .start (.revokeKey userId id) ∈ es
  | .touchApiKey _ _ => ∃ plaintext, .start (.validateKey plaintext) ∈ es
  | .commit | .rollback | .insertUser _ _ | .saveProviderAccount _ _ =>
    ∃ r, .start r ∈ es ∧ r.onAccounts = true
  | _ => True

/-- The thread drew a secret and stored a key whose hash is that of the plaintext with it. -/
def MadeKey (es : Events P) (id secret : String) : Prop :=
  .call .randomSecret (.ok secret) ∈ es ∧ ∃ userId label salt keyPrefix key,
    .call (.saveApiKey userId label (P.bcryptHash (KEY_NAMESPACE ++ secret) salt) keyPrefix)
      (.ok key) ∈ es ∧ key.id = id

/-- What a thread has done when it has answered. -/
def KeyAnswer (P : Platform) (es : Events P) : Req → Ans → Prop
  | .createKey userId _, a => Admitted P es userId ∧ ∃ key secret, a = .key key ∧
      MadeKey es key.id secret ∧ key.key = KEY_NAMESPACE ++ secret
  | .revokeKey userId id, _ =>
    ∃ now n, .call (.revokeApiKey id userId now) (.ok n) ∈ es ∧ n ≠ 0
  | .validateKey plaintext, a => ∃ owner, a = .owner owner ∧ ∀ userId, owner = some userId →
      ∃ keyPrefix key, .call (.findLiveApiKey keyPrefix) (.ok (some key)) ∈ es ∧
        P.bcryptCompare plaintext key.keyHash = true ∧ key.userId = userId
  | _, _ => True

/-- Why a thread did not create a key: a statement failed, there is no such user, the new id was
taken, or the limit had been reached. -/
inductive Refused (P : Platform) (es : Events P) (userId : String) : AppError → Prop
  | failed {c : Cmd} {e : AppError} (failed : .call c (.error .queryFailed) ∈ es) : Refused P es userId e
  | missing {e : AppError} (missing : .call (.findUserById userId) (.ok none) ∈ es) :
      Refused P es userId e
  | taken {u l h p : String} {e : AppError}
      (taken : .call (.saveApiKey u l h p) (.error .uniqueViolation) ∈ es) : Refused P es userId e
  | full {t n : Nat} {user : User} (counted : Counted es userId t n user)
      (full : UsageService.resolveKeyLimit P user ≤ n) :
      Refused P es userId MonthlyKeyLimitExceededError

/-- What a thread has done when it ends. -/
def KeyEnd (r : Req) (es : Events P) : Except AppError Ans → Prop
  | .ok a => KeyAnswer P es r a
  | .error e => ∀ userId label, r = .createKey userId label → Refused P es userId e

def apiKeys (P : Platform) : Contract (mikrouli P) := .ofHistory (KeyStep P) KeyEnd

/-! ### Requests -/

section Requests

/-- A creation as its answer sees it. -/
def CreationEnd (userId label : String) (es : Events P) (r : Except AppError CreatedApiKey) : Prop :=
  KeyEnd (.createKey userId label) es (r.map Ans.key)

section Creation

variable {userId label : String} {es : Events P} {e : AppError}

theorem creationEnd_of_refused (refused : Refused P es userId e) :
    CreationEnd userId label es (.error e) := by
  intro userId' label' same
  cases same
  exact refused

theorem countKeysThisMonth_along :
    Along (KeyStep P) (fun es' r => match r with
      | .ok n => ∃ t, es' = .call (.countKeys userId (getMonthBounds t).1 (getMonthBounds t).2)
          (.ok n) :: .call .dateNow (.ok t) :: es
      | .error e => Refused P es' userId e)
      (UsageService.countKeysThisMonth userId) es := by
  apply Along.bind
  apply await_along trivial
  intro res i ch w w' returned
  obtain ⟨-, rfl⟩ := exec_dateNow returned
  apply await_along trivial
  intro counted i ch w₁ w' returned
  obtain ⟨-, rfl | rfl⟩ := exec_countKeys returned
  · exact .failed List.mem_cons_self
  -- the month is the one of the time that was read
  · exact ⟨w.now, rfl⟩

theorem getKeyLimit_along :
    Along (KeyStep P) (fun es' r => match r with
      | .ok limit => ∃ user, limit = UsageService.resolveKeyLimit P user ∧
          es' = .call (.findUserById userId) (.ok (some user)) :: es
      | .error e => Refused P es' userId e)
      (UsageService.getKeyLimit P userId) es := by
  apply Along.bind
  apply Along.bind
  apply await_along trivial
  intro found i ch w w' returned
  obtain ⟨-, ⟨-, rfl⟩ | rfl⟩ := exec_findUserById returned
  · exact .failed List.mem_cons_self
  · cases w.userById i userId with
    -- a count was made, but there is no such user
    | none => exact .missing List.mem_cons_self
    | some user => exact ⟨user, rfl, rfl⟩

theorem createForUser_along :
    Along (KeyStep P) (CreationEnd userId label)
      (ApiKeysService.createForUser P userId label) [.start (.createKey userId label)] := by
  apply Along.bind
  refine countKeysThisMonth_along.mono fun es₁ r counted => ?_
  cases r with
  | error e => exact creationEnd_of_refused counted
  | ok n =>
    obtain ⟨t, rfl⟩ := counted
    apply Along.bind
    refine getKeyLimit_along.mono fun es₂ r limited => ?_
    cases r with
    | error e => exact creationEnd_of_refused limited
    | ok limit =>
      obtain ⟨user, rfl, rfl⟩ := limited
      simp only
      split
      next full =>
        have counted : Counted (.call (.findUserById userId) (.ok (some user)) ::
            .call (.countKeys userId (getMonthBounds t).1 (getMonthBounds t).2) (.ok n) ::
            .call .dateNow (.ok t) :: [.start (.createKey userId label)] : Events P) userId t n user :=
          ⟨by simp, by simp, by simp⟩
        exact creationEnd_of_refused (.full counted full)
      next below =>
        apply Along.bind
        apply Along.bind
        apply await_along trivial
        intro drawn i ch w w' returned
        obtain ⟨secret, rfl, -, -⟩ := exec_randomSecret returned
        apply Along.bind
        apply await_along trivial
        intro hashed i ch w₁ w' returned
        obtain ⟨-, salt, rfl⟩ := exec_bcryptHash returned
        -- what it has done by now lets it save its first and only key
        have admitted : Admitted P (.call (.bcryptHash (KEY_NAMESPACE ++ secret))
              (.ok (P.bcryptHash (KEY_NAMESPACE ++ secret) salt)) ::
            .call .randomSecret (.ok secret) :: .call (.findUserById userId) (.ok (some user)) ::
            .call (.countKeys userId (getMonthBounds t).1 (getMonthBounds t).2) (.ok n) ::
            .call .dateNow (.ok t) :: [.start (.createKey userId label)]) userId :=
          ⟨t, n, user, ⟨by simp, by simp, by simp⟩, Int.not_le.mp below⟩
        apply Along.bind
        apply await_along
        -- the INSERT: the hash stored is that of the plaintext, and no other key was saved before
        · exact ⟨by simp, by simp, admitted, secret, salt, by simp, rfl⟩
        intro saved i ch w₂ w' returned
        rcases exec_saveApiKey returned with ⟨-, rfl | ⟨rfl, -⟩⟩ | ⟨key, -, rfl, -⟩
        · exact creationEnd_of_refused (.failed List.mem_cons_self)
        · exact creationEnd_of_refused (.taken List.mem_cons_self)
        -- saved: the answer carries the secret that was drawn
        · obtain ⟨t', n', user', ⟨clock, count, found⟩, below'⟩ := admitted
          refine ⟨⟨t', n', user', ⟨.tail _ clock, .tail _ count, .tail _ found⟩, below'⟩, _, secret,
            rfl, ⟨by simp, ?_⟩, rfl⟩
          exact ⟨userId, label, salt, _, key, List.mem_cons_self, rfl⟩

end Creation

theorem revoke_along {userId id : String} :
    Along (KeyStep P)
      (fun es r => KeyEnd (.revokeKey userId id) es (r.map fun _ => Ans.noContent))
      (ApiKeysService.revoke userId id) [.start (.revokeKey userId id)] := by
  apply Along.bind
  apply await_along trivial
  intro res i ch w w' returned
  obtain ⟨-, rfl⟩ := exec_dateNow returned
  apply Along.bind
  apply await_along
  · exact List.mem_cons_of_mem _ List.mem_cons_self
  intro affected i ch w₁ w' _
  cases affected with
  | error e => exact fun _ _ other => by cases other
  | ok n =>
    simp only
    split
    -- no row was hit, which the caller is told
    next => exact fun _ _ other => by cases other
    -- a live key of the user was revoked
    next hit => exact ⟨_, n, List.mem_cons_self, hit⟩

/-- Whatever becomes of the last-used time, the answer stands. -/
theorem markUsed_along {es : Events P} {id plaintext : String}
    (asked : .start (.validateKey plaintext) ∈ es) :
    Along (KeyStep P) (fun es' r => r = .ok () ∧ ∀ e ∈ es, e ∈ es')
      (ApiKeysService.markUsed id) es := by
  apply Along.tryCatch
  apply Along.bind
  apply await_along trivial
  intro res i ch w w' returned
  obtain ⟨-, rfl⟩ := exec_dateNow returned
  apply await_along
  · exact ⟨plaintext, List.mem_cons_of_mem _ asked⟩
  intro touched i ch w₁ w' _
  have kept : ∀ e ∈ es, e ∈ (.call (.touchApiKey id w.now) touched ::
      .call .dateNow (.ok w.now) :: es : Events P) :=
    fun e member => List.mem_cons_of_mem _ (List.mem_cons_of_mem _ member)
  -- a failure is only logged
  cases touched with
  | ok a => exact ⟨rfl, kept⟩
  | error e => exact ⟨rfl, kept⟩

theorem validate_along {plaintext : String} :
    Along (KeyStep P) (fun es r => KeyEnd (.validateKey plaintext) es (r.map Ans.owner))
      (ApiKeysService.validate P plaintext) [.start (.validateKey plaintext)] := by
  have refused : ∀ es : Events P,
      KeyEnd (.validateKey plaintext) es (.ok (.owner none)) :=
    fun es => ⟨none, rfl, fun userId none => by cases none⟩
  apply Along.bind
  apply await_along trivial
  intro found i ch w w' _
  cases found with
  | error e => exact fun _ _ other => by cases other
  | ok key =>
    cases key with
    | none => exact refused _
    | some key =>
      simp only
      split
      -- the hash is not that of the text
      next => exact refused _
      next accepted =>
        apply Along.bind
        refine (markUsed_along (List.mem_cons_of_mem _ List.mem_cons_self)).mono
          fun es r marked => ?_
        obtain ⟨rfl, kept⟩ := marked
        refine ⟨_, rfl, fun userId owner => ?_⟩
        cases owner
        -- the owner comes from the row that was found
        exact ⟨_, key, kept _ List.mem_cons_self, by simpa using accepted, rfl⟩

/-- Any other request: it may work on accounts, and writes no key. -/
theorem serve_keylessAlong {r : Req} (creates : r.keyOwner? = none)
    (revokes : ∀ userId id, r ≠ .revokeKey userId id)
    (validates : ∀ plaintext, r ≠ .validateKey plaintext) :
    Along (KeyStep P) (KeyEnd r) (serve P r) [.start r] := by
  refine Along.of_only (K := fun es => .start r ∈ es) (serve_only P r) ?_ ?_ List.mem_cons_self
  · intro es c may started
    refine ⟨?_, fun _ _ => List.mem_cons_of_mem _ started⟩
    cases c with
    | saveApiKey userId label keyHash keyPrefix =>
      rw [Req.MayIssue, creates] at may
      cases may
    | revokeApiKey id userId now =>
      obtain ⟨id', request⟩ := may
      exact absurd request (revokes userId id')
    | touchApiKey id now =>
      obtain ⟨plaintext, request⟩ := may
      exact absurd request (validates plaintext)
    -- the requests on accounts are the only ones with transactions of their own
    | commit | rollback => exact ⟨r, started, may⟩
    | insertUser email passwordHash => exact ⟨r, started, may⟩
    | saveProviderAccount providerUserId userId => exact ⟨r, started, may⟩
    | _ => trivial
  · intro es res _
    cases res with
    | ok a =>
      cases r with
      | createKey userId label => cases creates
      | revokeKey userId id => exact absurd rfl (revokes userId id)
      | validateKey plaintext => exact absurd rfl (validates plaintext)
      | _ => trivial
    | error e =>
      rintro userId label rfl
      cases creates

theorem serve_keysAlong (r : Req) : Along (KeyStep P) (KeyEnd r) (serve P r) [.start r] := by
  cases r with
  | createKey userId label => exact .map createForUser_along
  | revokeKey userId id => exact .map revoke_along
  | validateKey plaintext => exact .map validate_along
  | _ => exact serve_keylessAlong rfl (by simp) (by simp)

theorem apiKeys_sound {G : Guard (mikrouli P)} : (apiKeys P).Sound G :=
  Contract.ofHistory_sound serve_keysAlong

end Requests

/-! ### Rows -/

/-- What an update may make of a key: it stays whose it is, and revoked once it is. -/
structure ApiKey.Becomes (k k' : ApiKey) : Prop where
  id : k'.id = k.id
  userId : k'.userId = k.userId
  keyHash : k'.keyHash = k.keyHash
  createdAt : k'.createdAt = k.createdAt
  stays : k.revokedAt ≠ none → k'.revokedAt ≠ none

theorem ApiKey.Becomes.refl (k : ApiKey) : k.Becomes k := ⟨rfl, rfl, rfl, rfl, fun revoked => revoked⟩

section Rows

variable {i : Nat} {c : Cmd} {ch : Choice} {w w' : World} {res : Except AppError c.Res}

theorem becomes_touched {p : ApiKey → Bool} {f : ApiKey → ApiKey} (kept : ∀ k, (f k).id = k.id)
    (becomes : ∀ k : ApiKey, k.Becomes (f k)) :
    (∀ k ∈ w.apiKeys.rows, ∃ k' ∈ (w.touchedKeys p f kept).rows, k.Becomes k') ∧
      ∀ k' ∈ (w.touchedKeys p f kept).rows, ∃ k ∈ w.apiKeys.rows, k.Becomes k' := by
  have either : ∀ k : ApiKey, k.Becomes (if p k then f k else k) := by
    intro k
    split
    · exact becomes k
    · exact .refl k
  constructor
  · intro k member
    exact ⟨_, (World.mem_touchedKeys kept).mpr ⟨k, member, rfl⟩, either k⟩
  · intro k' member
    obtain ⟨k, old, rfl⟩ := (World.mem_touchedKeys kept).mp member
    exact ⟨k, old, either k⟩

/-- A command keeps every key there is, and only an insertion adds one. -/
theorem exec_keys (returned : exec P i c ch w = some (res, w')) :
    (∀ k ∈ w.apiKeys.rows, ∃ k' ∈ w'.apiKeys.rows, k.Becomes k') ∧
      ∀ k' ∈ w'.apiKeys.rows, (∃ k ∈ w.apiKeys.rows, k.Becomes k') ∨
        ∃ u l p, c = .saveApiKey u l k'.keyHash p ∧
          (.call c res : Event (mikrouli P)) = .call (.saveApiKey u l k'.keyHash p) (.ok k') := by
  have same : w'.apiKeys = w.apiKeys →
      (∀ k ∈ w.apiKeys.rows, ∃ k' ∈ w'.apiKeys.rows, k.Becomes k') ∧
        ∀ k' ∈ w'.apiKeys.rows, ∃ k ∈ w.apiKeys.rows, k.Becomes k' := by
    intro same
    rw [same]
    exact ⟨fun k member => ⟨k, member, .refl k⟩, fun k member => ⟨k, member, .refl k⟩⟩
  cases c with
  | saveApiKey u l h p =>
    rcases exec_saveApiKey returned with
      ⟨unchanged, -⟩ | ⟨key, keys, rfl, inserted, after, row, -⟩
    · exact ⟨(same unchanged).1, fun k' member => .inl ((same unchanged).2 k' member)⟩
    · rw [after]
      simp only [(Table.insert?_eq_some.mp inserted).2, List.mem_cons]
      -- the new row stands in front of those there were
      refine ⟨fun k member => ⟨k, .inr member, .refl k⟩, ?_⟩
      rintro k' (rfl | old)
      · rw [row]
        exact .inr ⟨u, l, p, rfl, rfl⟩
      · exact .inl ⟨k', old, .refl k'⟩
  | revokeApiKey id userId now =>
    rcases exec_revokeApiKey returned with ⟨rfl, -⟩ | ⟨-, rfl⟩
    · exact ⟨(same rfl).1, fun k' member => .inl ((same rfl).2 k' member)⟩
    -- an update of some rows, each kept as the key it is
    · obtain ⟨kept, origin⟩ := becomes_touched (w := w)
        (p := fun k => decide (k.id = id) && decide (k.userId = userId) && decide (k.revokedAt = none))
        (f := fun k => { k with revokedAt := some now }) (fun _ => rfl)
        fun k => ⟨rfl, rfl, rfl, rfl, fun _ => by simp⟩
      exact ⟨kept, fun k' member => .inl (origin k' member)⟩
  | touchApiKey id now =>
    rcases exec_touchApiKey returned with ⟨rfl, -⟩ | ⟨-, rfl⟩
    · exact ⟨(same rfl).1, fun k' member => .inl ((same rfl).2 k' member)⟩
    · obtain ⟨kept, origin⟩ := becomes_touched (w := w) (p := fun k => decide (k.id = id))
        (f := fun k => { k with lastUsedAt := some now }) (fun _ => rfl)
        fun k => ⟨rfl, rfl, rfl, rfl, fun revoked => revoked⟩
      exact ⟨kept, fun k' member => .inl (origin k' member)⟩
  | _ =>
    have unchanged := same ((exec_frame returned).apiKeys rfl)
    exact ⟨unchanged.1, fun k' member => .inl (unchanged.2 k' member)⟩

/-! ### Counting -/

/-- The keys that count for the user in a month, revoked or not. -/
def keyRows (userId : String) (month : Int × Int) (w : World) : Nat :=
  w.apiKeys.count fun k => k.createdBy userId month.1 month.2

theorem keyRows_saveApiKey (userId : String) (month : Int × Int)
    {u label keyHash keyPrefix : String} {res : Except AppError ApiKey}
    (returned : exec P i (.saveApiKey u label keyHash keyPrefix) ch w = some (res, w')) :
    (∃ e, res = .error e) ∧ keyRows userId month w' = keyRows userId month w ∨
      ∃ key, res = .ok key ∧ key.userId = u ∧ key.createdAt = w.now ∧
        keyRows userId month w' = keyRows userId month w +
          if key.createdBy userId month.1 month.2 then 1 else 0 := by
  rcases exec_saveApiKey returned with ⟨same, failed⟩ | ⟨key, keys, rfl, inserted, after, row, -⟩
  · refine .inl ⟨?_, ?_⟩
    · rcases failed with rfl | ⟨rfl, -⟩
      · exact ⟨_, rfl⟩
      · exact ⟨_, rfl⟩
    · rw [keyRows, same]
      rfl
  · refine .inr ⟨key, rfl, by rw [row], by rw [row], ?_⟩
    rw [keyRows, after]
    exact Table.count_insert inserted _

/-- Revoked and touched keys still count: their owner and their creation stay. -/
theorem keyRows_of_other (userId : String) (month : Int × Int)
    (other : ∀ u l h p, c ≠ .saveApiKey u l h p) (returned : exec P i c ch w = some (res, w')) :
    keyRows userId month w' = keyRows userId month w := by
  cases c with
  | saveApiKey u l h p => exact absurd rfl (other u l h p)
  | revokeApiKey id u now =>
    rcases exec_revokeApiKey returned with ⟨rfl, -⟩ | ⟨-, rfl⟩
    · rfl
    · exact Table.count_update (by simp) fun _ => rfl
  | touchApiKey id now =>
    rcases exec_touchApiKey returned with ⟨rfl, -⟩ | ⟨-, rfl⟩
    · rfl
    · exact Table.count_update (by simp) fun _ => rfl
  | _ => rw [keyRows, (exec_frame returned).apiKeys rfl]; rfl

end Rows

end Mikrouli
