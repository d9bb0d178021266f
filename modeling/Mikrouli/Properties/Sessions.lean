import Mikrouli.Properties.Tokens

/-! Refresh tokens over whole runs: when a token is spent for good, and how tokens descend from
one another. -/

namespace Mikrouli

open Async Store

variable {P : Platform}

/-! ### Spent tokens -/

/-- No call is between being let through with the token and its end, and none will be let
through: the entry is gone, or the token has expired and nobody verified it in time. -/
structure Spent (σ : Shared (mikrouli P)) (t : Jwt) : Prop where
  idle : ∀ j, rotating t (σ.own j) = false
  dead : σ.world.lists t = false ∨
    t.exp ≤ σ.world.now / 1000 ∧ ∀ j, mayPass t (σ.own j) = false

section Spent

variable {G : Guard (mikrouli P)} {σ σ' : Shared (mikrouli P)} {i : Nat} {c : Cmd} {ch : Choice}
  {w : World} {res : Except AppError c.Res} {t : Jwt}

/-- A thread that drew the family of a settled token has stored its entry already. -/
theorem stored_of_settled (ledger : Ledger σ) (settled : Settled σ t) {jti f : String}
    (claims : refreshClaims t.payload = some (jti, f)) (drew : (σ.own i).any (draws f) = true) :
    (σ.own i).any stored = true := by
  obtain ⟨jti', f', claims', s, drew', did⟩ := settled
  rw [claims] at claims'
  cases claims'
  -- the family was drawn once, so by the thread that has stored
  rw [ledger.single i s f drew drew']
  exact did

/-- No command brings back the entry of a settled token. -/
theorem lists_of_called (ledger : Ledger σ) (settled : Settled σ t) (proper : Proper P i c σ)
    (returned : exec P i c ch σ.world = some (res, w)) (after : w.lists t = true) :
    σ.world.lists t = true := by
  obtain ⟨key, jti, entry, found⟩ := lists_eq_true.mp after
  obtain ⟨f, claims, rfl⟩ := entry?_eq_some.mp entry
  obtain ⟨e, there, live, value⟩ := Expiring.get_eq_some.mp found
  rw [(exec_frame returned).now] at live
  rcases entry_called proper returned there with before | ⟨drew, first, -⟩
  · have found' := Expiring.get_eq_some.mpr ⟨e, before, live, value⟩
    exact lists_eq_true.mpr ⟨_, jti, entry, found'⟩
  -- a thread stores once: the entry of a settled token is not stored again
  · rw [stored_of_settled ledger settled claims drew] at first
    cases first

theorem lists_of_advance {ms : Nat} {w : World} (after : (w.advance ms).lists t = true) :
    w.lists t = true := by
  obtain ⟨key, jti, entry, found⟩ := lists_eq_true.mp after
  have earlier : w.redis.get w.now key = some jti := Expiring.get_mono (Nat.le_add_right _ ms) found
  exact lists_eq_true.mpr ⟨key, jti, entry, earlier⟩

theorem Spent.called (spent : Spent σ t) (ledger : Ledger σ) (settled : Settled σ t)
    (proper : Proper P i c σ) (returned : exec P i c ch σ.world = some (res, w)) :
    Spent (σ.called i c res w) t := by
  have unlisted : σ.world.lists t = false → w.lists t = false := by
    intro gone
    by_contra there
    rw [Bool.not_eq_false] at there
    rw [lists_of_called ledger settled proper returned there] at gone
    cases gone
  constructor
  · intro j
    by_contra after
    rw [Bool.not_eq_false] at after
    obtain ⟨through, open_⟩ := rotating_eq_true.mp after
    obtain ⟨asked, pass⟩ := passed_eq_true.mp through
    rw [presented_called] at asked
    have still : (σ.own j).any settles = false := by
      by_contra settle
      rw [Bool.not_eq_false] at settle
      rw [Shared.any_called.mpr (.inr settle)] at open_
      cases open_
    rcases Shared.any_called.mp pass with ⟨rfl, now⟩ | before
    · -- to be let through now, the entry has to be there and the token verified in time
      obtain ⟨⟨key, rfl⟩, listed⟩ := lists_of_passes now returned
      rcases spent.dead with gone | ⟨-, late⟩
      · rw [listed] at gone
        cases gone
      · have may := proper t asked
        rw [late j] at may
        cases may
    · have rotates := rotating_eq_true.mpr ⟨passed_eq_true.mpr ⟨asked, before⟩, still⟩
      rw [spent.idle j] at rotates
      cases rotates
  · rcases spent.dead with gone | ⟨expired, late⟩
    · exact .inl (unlisted gone)
    · refine .inr ⟨?_, fun j => ?_⟩
      · rw [Shared.called_world, (exec_frame returned).now]
        exact expired
      · by_contra after
        rw [Bool.not_eq_false] at after
        obtain ⟨asked, verified, unread⟩ := mayPass_eq_true.mp after
        rw [presented_called] at asked
        have still : (σ.own j).any reads = false := by
          by_contra read
          rw [Bool.not_eq_false] at read
          rw [Shared.any_called.mpr (.inr read)] at unread
          cases unread
        rcases Shared.any_called.mp verified with ⟨rfl, verify⟩ | before
        · unfold verifies at verify
          split at verify
          next secret t' a same =>
            cases same
            obtain ⟨-, ⟨-, -, intime⟩ | ⟨failed, -⟩⟩ := exec_verify_jwt returned
            -- verified in time, although it has expired
            · rw [of_decide_eq_true verify] at intime
              omega
            · cases failed
          · cases verify
        · have may := mayPass_eq_true.mpr ⟨asked, before, still⟩
          rw [late j] at may
          cases may

theorem Spent.started (spent : Spent σ t) {n : Nat} (fresh : σ.own n = []) (r : Req) :
    Spent (σ.started n r) t := by
  have idle : ∀ j, rotating t ((σ.started n r).own j) = false := by
    intro j
    by_cases other : j = n
    · subst other
      rw [Shared.started_own_self, fresh]
      simp [rotating, passed, passes]
    · rw [Shared.started_own_of_ne other]
      exact spent.idle j
  refine ⟨idle, ?_⟩
  rcases spent.dead with gone | ⟨expired, late⟩
  · exact .inl gone
  · refine .inr ⟨expired, fun j => ?_⟩
    by_cases other : j = n
    · subst other
      rw [Shared.started_own_self, fresh]
      simp [mayPass, verifies]
    · rw [Shared.started_own_of_ne other]
      exact late j

theorem Spent.ticked (spent : Spent σ t) (ms : Nat) : Spent (σ.ticked ms) t := by
  refine ⟨spent.idle, ?_⟩
  rcases spent.dead with gone | ⟨expired, late⟩
  · left
    by_contra there
    rw [Bool.not_eq_false] at there
    rw [lists_of_advance there] at gone
    cases gone
  · have later : σ.world.now / 1000 ≤ (σ.world.now + ms) / 1000 :=
      Nat.div_le_div_right (Nat.le_add_right _ _)
    exact .inr ⟨Nat.le_trans expired later, late⟩

theorem Spent.acts (spent : Spent σ t) (ledger : Ledger σ) (settled : Settled σ t)
    (acts : (tokens P).Acts G σ σ') : Spent σ' t := by
  cases acts with
  | start n r fresh allowed => exact spent.started fresh r
  | call pre returned allowed => exact spent.called ledger settled pre returned
  | env ms allowed => exact spent.ticked ms

theorem Settled.acts (settled : Settled σ t) (acts : (tokens P).Acts G σ σ') : Settled σ' t := by
  cases acts with
  | start n r fresh allowed => exact settled.started
  | call pre returned allowed => exact settled.called
  | env ms allowed => exact settled

end Spent

/-! ### Descent -/

section Descent

variable {G : Guard (mikrouli P)} {σ σ' : Shared (mikrouli P)} {i : Nat} {c : Cmd} {ch : Choice}
  {w : World} {res : Except AppError c.Res} {t t' a b x y : Jwt}

theorem settled_of_passed (ledger : Ledger σ) (through : passed t (σ.own i) = true) :
    Settled σ t := ledger.passed i t through

theorem settled_of_issued (ledger : Ledger σ) (issue : issued t (σ.own i) = true) :
    Settled σ t := by
  obtain ⟨-, store⟩ := issued_eq_true.mp issue
  obtain ⟨jti, f, claims, drew⟩ := ledger.stores i t store
  refine ⟨jti, f, claims, i, drew, ?_⟩
  obtain ⟨e, member, holds⟩ := List.any_eq_true.mp store
  exact List.any_eq_true.mpr ⟨e, member, stored_of_stores holds⟩

theorem accepted_of_rotates {t' : Jwt} (asked : presented (σ.own i) = some t)
    (issue : issued t' (σ.own i) = true) : accepted t (σ.own i) = true := by
  obtain ⟨-, store⟩ := issued_eq_true.mp issue
  obtain ⟨e, member, holds⟩ := List.any_eq_true.mp store
  exact accepted_eq_true.mpr ⟨asked, List.any_eq_true.mpr ⟨e, member, stored_of_stores holds⟩⟩

theorem Rotates.settled_source (ledger : Ledger σ) : Rotates σ a b → Settled σ a := by
  rintro ⟨i, asked, issue⟩
  exact ledger.passed i a (ledger.accepted i a (accepted_of_rotates asked issue))

theorem Rotates.settled_target (ledger : Ledger σ) : Rotates σ a b → Settled σ b := by
  rintro ⟨i, -, issue⟩
  exact settled_of_issued ledger issue

theorem Descends.settled (ledger : Ledger σ) (descends : Descends σ x y) (settled : Settled σ x) :
    Settled σ y := by
  cases descends with
  | refl => exact settled
  | tail _ edge => exact edge.settled_target ledger

theorem Descends.settled_of (ledger : Ledger σ) (descends : Descends σ x y)
    (settled : Settled σ y) : Settled σ x := by
  rcases Relation.ReflTransGen.cases_head descends with rfl | ⟨z, edge, -⟩
  · exact settled
  · exact edge.settled_source ledger

/-- A command adds at most the rotation its thread is at, to a token that was not there. -/
theorem rotates_called (ledger : Ledger σ) (proper : Proper P i c σ)
    (after : Rotates (σ.called i c res w) a b) :
    Rotates σ a b ∨ rotating a (σ.own i) = true ∧ ¬Settled σ b := by
  obtain ⟨j, asked, issue⟩ := after
  rw [presented_called] at asked
  obtain ⟨sign, store⟩ := issued_eq_true.mp issue
  rcases Shared.any_called.mp store with ⟨rfl, now⟩ | before
  · obtain ⟨jti, f, claims, drew, first, rotates⟩ := drew_of_stores proper now
    refine .inr ⟨rotates a asked, fun settled => ?_⟩
    rw [stored_of_settled ledger settled claims drew] at first
    cases first
  · rcases Shared.any_called.mp sign with ⟨rfl, now⟩ | earlier
    · -- a thread signs before it stores
      unfold signs at now
      split at now
      next secret payload expiresIn t same =>
        cases same
        obtain ⟨e, member, holds⟩ := List.any_eq_true.mp before
        have did : (σ.own j).any stored = true :=
          List.any_eq_true.mpr ⟨e, member, stored_of_stores holds⟩
        rw [proper.1] at did
        cases did
      · cases now
    · exact .inl ⟨j, asked, issued_eq_true.mpr ⟨earlier, before⟩⟩

theorem rotates_started {n : Nat} {r : Req} (fresh : σ.own n = [])
    (after : Rotates (σ.started n r) a b) : Rotates σ a b := by
  obtain ⟨j, asked, issue⟩ := after
  obtain ⟨sign, store⟩ := issued_eq_true.mp issue
  obtain ⟨other, sign⟩ := any_started fresh rfl sign
  obtain ⟨-, store⟩ := any_started fresh rfl store
  rw [presented_started other] at asked
  exact ⟨j, asked, issued_eq_true.mpr ⟨sign, store⟩⟩

theorem descends_acts (ledger : Ledger σ) (acts : (tokens P).Acts G σ σ')
    (after : Descends σ' x y) :
    Descends σ x y ∨ ∃ a, Descends σ x a ∧ (∃ i, rotating a (σ.own i) = true) ∧ ¬Settled σ y := by
  have edges : ∀ {a b}, Rotates σ' a b →
      Rotates σ a b ∨ (∃ i, rotating a (σ.own i) = true) ∧ ¬Settled σ b := by
    intro a b edge
    cases acts with
    | start n r fresh allowed => exact .inl (rotates_started fresh edge)
    | call pre returned allowed =>
      exact (rotates_called ledger pre edge).imp_right fun new => ⟨⟨_, new.1⟩, new.2⟩
    | env ms allowed => exact .inl edge
  -- the path grows at its end; a new edge leads to a token that was not there
  induction after with
  | refl => exact .inl .refl
  | @tail y z _ edge ih =>
    rcases ih with path | ⟨a, path, rotates, unsettled⟩
    · rcases edges edge with old | ⟨rotates, unsettled⟩
      · exact .inl (path.tail old)
      · exact .inr ⟨y, path, rotates, unsettled⟩
    · -- a token that has just been issued has not been rotated
      rcases edges edge with old | ⟨⟨i, rotates⟩, -⟩
      · exact absurd (old.settled_source ledger) unsettled
      -- whoever rotates it was let through with it, and so its entry was stored
      · have through := (rotating_eq_true.mp rotates).1
        exact absurd (settled_of_passed ledger through) unsettled

/-- Acceptance needs a rotation that is under way. -/
theorem accepted_acts (acts : (tokens P).Acts G σ σ') {j : Nat}
    (after : accepted t (σ'.own j) = true) :
    accepted t (σ.own j) = true ∨ rotating t (σ.own j) = true := by
  obtain ⟨asked, store⟩ := accepted_eq_true.mp after
  cases acts with
  | start n r fresh allowed =>
    obtain ⟨other, store⟩ := any_started fresh rfl store
    rw [presented_started other] at asked
    exact .inl (accepted_eq_true.mpr ⟨asked, store⟩)
  | @call i c ch res w pre returned allowed =>
    rw [presented_called] at asked
    rcases Shared.any_called.mp store with ⟨rfl, now⟩ | before
    · obtain ⟨key, v, ex, rfl⟩ := redisSet_of_stored now
      rcases pre with ⟨unasked, -⟩ | ⟨f, -, -, -, rotates⟩
      · rw [unasked] at asked
        cases asked
      · exact .inr (rotates t asked)
    · exact .inl (accepted_eq_true.mpr ⟨asked, before⟩)
  | env ms allowed => exact .inl after

end Descent

/-! ### Concrete sessions -/

section Play

variable {σ : Shared (mikrouli P)} {t : Jwt}

/-- Decides whether a token is spent. -/
def isSpent (σ : Shared (mikrouli P)) (t : Jwt) : Bool :=
  (σ.log.all fun e => !rotating t (σ.own e.thread)) && !σ.world.lists t

theorem spent_of_isSpent (test : isSpent σ t = true) : Spent σ t := by
  simp only [isSpent, Bool.and_eq_true, List.all_eq_true, Bool.not_eq_true'] at test
  refine ⟨fun j => ?_, .inl test.2⟩
  by_cases seen : j ∈ σ.log.map Entry.thread
  · obtain ⟨e, member, rfl⟩ := List.mem_map.mp seen
    exact test.1 e member
  · rw [Shared.own_eq_nil_of_not_mem seen]
    rfl

/-- The tokens a run has mentioned: presented for rotation or signed. -/
def mentioned (σ : Shared (mikrouli P)) : List Jwt :=
  σ.log.filterMap fun e => match e.event with
    | .start (.rotateRefresh (.jwt t)) => some t
    | .call (.sign _ _ _) (.ok (t : Jwt)) => some t
    | _ => none

theorem mem_mentioned_of_presented {i : Nat} (asked : presented (σ.own i) = some t) :
    t ∈ mentioned σ := by
  obtain ⟨e, member, same⟩ := List.exists_of_findSome?_eq_some asked
  obtain ⟨entry, logged, -, rfl⟩ := Shared.mem_log_of_mem_own member
  refine List.mem_filterMap.mpr ⟨entry, logged, ?_⟩
  split at same
  next t' event =>
    rw [event]
    exact same
  · cases same

theorem mem_mentioned_of_issued {i : Nat} (issue : issued t (σ.own i) = true) :
    t ∈ mentioned σ := by
  obtain ⟨sign, -⟩ := issued_eq_true.mp issue
  obtain ⟨e, member, holds⟩ := List.any_eq_true.mp sign
  obtain ⟨entry, logged, -, rfl⟩ := Shared.mem_log_of_mem_own member
  refine List.mem_filterMap.mpr ⟨entry, logged, ?_⟩
  unfold signs at holds
  split at holds
  next t' event =>
    rw [event]
    exact congrArg some (of_decide_eq_true holds)
  · cases holds

theorem mem_mentioned_of_sameLogin {t' : Jwt} (same : SameLogin σ t t') :
    t' = t ∨ t' ∈ mentioned σ := by
  obtain ⟨root, path, path'⟩ := same
  rcases Relation.ReflTransGen.cases_tail path' with rfl | ⟨a, -, i, -, issue⟩
  · rcases Relation.ReflTransGen.cases_head path with rfl | ⟨b, ⟨i, asked, -⟩, -⟩
    · exact .inl rfl
    · exact .inr (mem_mentioned_of_presented asked)
  · exact .inr (mem_mentioned_of_issued issue)

theorem exists_logged_of_presented {i : Nat} (asked : presented (σ.own i) = some t) :
    ∃ e ∈ σ.log, e.thread = i := by
  obtain ⟨e, member, -⟩ := List.exists_of_findSome?_eq_some asked
  obtain ⟨entry, logged, thread, -⟩ := Shared.mem_log_of_mem_own member
  exact ⟨entry, logged, thread⟩

/-- Tokens handed in come from the server, as nobody else can sign one. -/
def unforged (P : Platform) (σ : Shared (mikrouli P)) : Act (mikrouli P) → Prop
  | .start (.rotateRefresh (.jwt t)) => t.secret = P.jwtRefreshSecret → t ∈ σ.world.signed
  | .start (.revokeRefresh (.jwt t)) => t.secret = P.jwtRefreshSecret → t ∈ σ.world.signed
  | _ => True

/-- Decides `unforged`. -/
def isUnforged (σ : Shared (mikrouli P)) : Act (mikrouli P) → Bool
  | .start (.rotateRefresh (.jwt t)) => decide (t ∈ σ.world.signed)
  | .start (.revokeRefresh (.jwt t)) => decide (t ∈ σ.world.signed)
  | _ => true

theorem unforged_of_isUnforged (σ : Shared (mikrouli P)) (a : Act (mikrouli P))
    (test : isUnforged σ a = true) : unforged P σ a := by
  unfold isUnforged at test
  split at test
  · exact fun _ => of_decide_eq_true test
  · exact fun _ => of_decide_eq_true test
  next other other' =>
    unfold unforged
    split
    · exact absurd rfl (other _)
    · exact absurd rfl (other' _)
    · trivial

/-- Decides whether thread `i` has answered `r`. -/
def hasAnswered (c : Config (mikrouli P)) (i : Nat) (r : Req) : Bool :=
  (c.answer? i).any fun x : Req × Ans => decide (x.1 = r)

theorem answered_of_hasAnswered {c : Config (mikrouli P)} {i : Nat} {r : Req}
    (test : hasAnswered c i r = true) : ∃ a, c.Answered i r a := by
  obtain ⟨⟨r', a⟩, answer, same⟩ := (Option.any_eq_true _ _).mp test
  cases of_decide_eq_true same
  exact ⟨a, answered_of_answer? answer⟩

/-- The refresh token that thread 0 or a rotation of its token issues. -/
def refreshToken (jti family : String) : Jwt :=
  ⟨"refresh secret", ⟨"u", "u@ab.cd", some REFRESH_TOKEN_TYPE, some jti, some family⟩, 5, 604805⟩

def signIn : List (Move (mikrouli Platform.plain)) :=
  [.start (.loginWithGithub ⟨"g", "u@ab.cd"⟩), .run 0 {}, .run 0 {}, .run 0 { draw := "u" },
   .run 0 {}, .run 0 { draw := "p" }, .run 0 {}, .run 0 { draw := "j" }, .run 0 { draw := "f" },
   .run 0 {}, .run 0 {}, .run 0 {}]

/-- Thread `i` is let through with its token and issues the one with the given ids. -/
def rotation (i : Nat) (jti family : String) : List (Move (mikrouli Platform.plain)) :=
  [.run i {}, .run i {}, .run i {}, .run i { draw := jti }, .run i { draw := family },
   .run i {}, .run i {}, .run i {}]

end Play

end Mikrouli
