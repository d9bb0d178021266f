import Mikrouli.Properties.Sessions

/-! Logout: when it ends the session its token belongs to. -/

namespace Mikrouli

open Async Store

variable {P : Platform}

variable {G : Guard (mikrouli P)} {σ σ' : Shared (mikrouli P)} {n : Nat} {t : Jwt}

/-- When a logout verifies its token, the older tokens of the chain are spent; and no rotation of
the token itself is under way when its entry is deleted, or when it turns out to have expired. -/
def olderSpent (P : Platform) : Guard (mikrouli P)
  | σ, .call i (.verify _ _) _ => ∀ t, revoking (σ.own i) = some t →
    (∀ t', Descends σ t' t → t' ≠ t → Spent σ t') ∧ (t.exp ≤ σ.world.now / 1000 → Spent σ t)
  | σ, .call i (.redisDel _) _ => ∀ t, revoking (σ.own i) = some t →
    ∀ j, rotating t (σ.own j) = false
  | _, _ => True

/-- How far thread `n` has got with the logout of `t`: once it has verified the token, the older
ones are spent, and once it is through, so is `t`. -/
structure LoggingOut (n : Nat) (t : Jwt) (σ : Shared (mikrouli P)) : Prop where
  asked : revoking (σ.own n) = some t
  settled : Settled σ t
  older : (σ.own n).any checks = true → ∀ t', Descends σ t' t → t' ≠ t → Spent σ t'
  done : revoked t (σ.own n) = true → Spent σ t

/-- The ancestors of a settled token stay the same. -/
theorem descends_settled_acts (ledger : Ledger σ) (acts : (tokens P).Acts G σ σ')
    (settled : Settled σ t) {t' : Jwt} (after : Descends σ' t' t) : Descends σ t' t := by
  rcases descends_acts ledger acts after with before | ⟨a, -, -, unsettled⟩
  · exact before
  · exact absurd settled unsettled

theorem not_lists_of_del {key : String} {w : World} (entry : t.entry?.map Prod.fst = some key) :
    ({ w with redis := w.redis.del key } : World).lists t = false := by
  by_contra there
  rw [Bool.not_eq_false] at there
  obtain ⟨key', jti, entry', found⟩ := lists_eq_true.mp there
  rw [entry'] at entry
  cases entry
  rw [show ({ w with redis := w.redis.del key' } : World).redis.get w.now key' = none from
    Expiring.get_del_self _ _ _] at found
  cases found

/-- The step by which a logout gets through spends its token. -/
theorem spent_of_revokes {c : Cmd} {ch : Choice} {res : Except AppError c.Res} {w : World}
    (ledger : Ledger σ) (settled : Settled σ t) (asked : revoking (σ.own n) = some t)
    (secret : t.secret = P.jwtRefreshSecret) (proper : Proper P n c σ)
    (returned : exec P n c ch σ.world = some (res, w)) (allowed : olderSpent P σ (.call n c ch))
    (now : revokes (P := P) t (.call c res) = true) : Spent (σ.called n c res w) t := by
  unfold revokes at now
  split at now
  next key a same =>
    cases same
    have entry : t.entry?.map Prod.fst = some key := of_decide_eq_true now
    rcases exec_redisDel returned with ⟨-, failed, -⟩ | ⟨-, -, rfl⟩
    · cases failed
    refine ⟨fun j => ?_, .inl (not_lists_of_del entry)⟩
    -- a deletion lets nobody through
    have idle := allowed t asked j
    by_contra after
    rw [Bool.not_eq_false] at after
    obtain ⟨through, open_⟩ := rotating_eq_true.mp after
    obtain ⟨presents, pass⟩ := passed_eq_true.mp through
    rw [presented_called] at presents
    rcases Shared.any_called.mp pass with ⟨-, now⟩ | before
    · cases now
    · rcases Bool.eq_false_or_eq_true ((σ.own j).any settles) with settle | open'
      · rw [Shared.any_called.mpr (.inr settle)] at open_
        cases open_
      · rw [rotating_eq_true.mpr ⟨passed_eq_true.mpr ⟨presents, before⟩, open'⟩] at idle
        cases idle
  next secret' t' e same =>
    cases same
    obtain ⟨rfl, rfl⟩ := of_decide_eq_true now
    obtain ⟨-, ⟨failed, -⟩ | ⟨-, expired⟩⟩ := exec_verify_jwt returned
    · cases failed
    · exact ((allowed t' asked).2 (expired secret)).called ledger settled proper returned
  · cases now

theorem LoggingOut.acts (logout : LoggingOut n t σ) (secret : t.secret = P.jwtRefreshSecret)
    (ledger : Ledger σ) (acts : (tokens P).Acts (olderSpent P) σ σ') : LoggingOut n t σ' := by
  obtain ⟨asked, settled, older, done⟩ := logout
  have ancestors : ∀ t', Descends σ' t' t → Descends σ t' t :=
    fun t' => descends_settled_acts ledger acts settled
  have kept : ∀ t', Descends σ' t' t → Spent σ t' → Spent σ' t' := fun t' path spent =>
    spent.acts ledger ((ancestors t' path).settled_of ledger settled) acts
  have settled' := settled.acts acts
  cases acts with
  | start m r fresh allowed =>
    have other : n ≠ m := by
      rintro rfl
      rw [fresh] at asked
      cases asked
    constructor
    · rw [Shared.started_own_of_ne other]
      exact asked
    · exact settled'
    · intro verify t' path younger
      rw [Shared.started_own_of_ne other] at verify
      exact kept t' path (older verify t' (ancestors t' path) younger)
    · intro through
      rw [Shared.started_own_of_ne other] at through
      exact kept t .refl (done through)
  | @call i c ch res w pre returned allowed =>
    constructor
    · rw [revoking_called]
      exact asked
    · exact settled'
    · intro verify t' path younger
      apply kept t' path
      rcases Shared.any_called.mp verify with ⟨rfl, now⟩ | before
      · unfold checks at now
        split at now
        next secret token res same =>
          cases same
          exact (allowed t asked).1 t' (ancestors t' path) younger
        · cases now
      · exact older before t' (ancestors t' path) younger
    · intro through
      obtain ⟨-, revoke⟩ := revoked_eq_true.mp through
      rcases Shared.any_called.mp revoke with ⟨rfl, now⟩ | before
      · exact spent_of_revokes ledger settled asked secret pre returned allowed now
      · exact kept t .refl (done (revoked_eq_true.mpr ⟨asked, before⟩))
  | env ms allowed => exact ⟨asked, settled', fun verify t' path younger =>
      kept t' path (older verify t' (ancestors t' path) younger),
      fun through => kept t .refl (done through)⟩

/-- Every token of the chain up to `t` is spent, and none has been accepted since `σ₀`. -/
structure LoggedOut (t : Jwt) (σ₀ σ : Shared (mikrouli P)) : Prop where
  settled : Settled σ t
  spent : ∀ t', Descends σ t' t → Spent σ t'
  since : ∀ j t', Descends σ t' t → accepted t' (σ.own j) = true → accepted t' (σ₀.own j) = true

theorem LoggedOut.acts {σ₀ : Shared (mikrouli P)} (out : LoggedOut t σ₀ σ) (ledger : Ledger σ)
    (acts : (tokens P).Acts G σ σ') : LoggedOut t σ₀ σ' := by
  obtain ⟨settled, spent, since⟩ := out
  have ancestors : ∀ t', Descends σ' t' t → Descends σ t' t :=
    fun t' => descends_settled_acts ledger acts settled
  refine ⟨settled.acts acts, fun t' path => ?_, fun j t' path accept => ?_⟩
  · exact (spent t' (ancestors t' path)).acts ledger
      ((ancestors t' path).settled_of ledger settled) acts
  · rcases accepted_acts acts accept with before | rotates
    · exact since j t' (ancestors t' path) before
    · rw [(spent t' (ancestors t' path)).idle j] at rotates
      cases rotates

theorem secret_of_issued (ledger : Ledger σ) {i : Nat} (issue : issued t (σ.own i) = true) :
    t.secret = P.jwtRefreshSecret ∧ t.entry? ≠ none := by
  obtain ⟨sign, store⟩ := issued_eq_true.mp issue
  obtain ⟨jti, f, claims, -⟩ := ledger.stores i t store
  have entry : t.entry? ≠ none := by
    rw [entry?_eq_some.mpr ⟨f, claims, rfl⟩]
    exact Option.some_ne_none _
  exact ⟨ledger.signed i t sign entry, entry⟩

/-- As long as each logout comes when the older tokens of its chain are spent, no token of the
chain is accepted after it. -/
theorem logout_ends_session {w₀ : World} (cold : ∀ f, w₀.redis (buildRevocationKey f) = none)
    {c c₁ c₂ : Config (mikrouli P)} (reach : Reach (olderSpent P) (initial w₀) c) {s : Nat}
    (issue : issued t (c.shared.own s) = true)
    (logout : Reach (olderSpent P) (c.arrive (.revokeRefresh (.jwt t))) c₁) {a : Ans}
    (answered : c₁.Answered c.threads.length (.revokeRefresh (.jwt t)) a)
    (later : Reach (olderSpent P) c₁ c₂) :
    ∀ t', Descends c₂.shared t' t →
      ∀ j, accepted t' (c₂.shared.own j) = true → accepted t' (c₁.shared.own j) = true := by
  have holds : (tokens P).Holds (olderSpent P) c :=
    (tokens_initial cold).reach tokens_sound reach
  obtain ⟨secret, entry⟩ := secret_of_issued holds.inv issue
  have fresh : c.shared.own c.threads.length = [] := own_nil_of_logged holds.logged
  have arrives : Step (olderSpent P) c (c.arrive (.revokeRefresh (.jwt t))) := .start _ trivial
  have holds₀ := holds.step tokens_sound arrives
  have holds₁ := holds₀.reach tokens_sound logout
  have begun : LoggingOut c.threads.length t (c.arrive (.revokeRefresh (.jwt t))).shared := by
    constructor
    · rw [Config.arrive, Shared.started_own_self, fresh]
      rfl
    · exact (settled_of_issued holds.inv issue).started
    · intro verify
      rw [Config.arrive, Shared.started_own_self, fresh] at verify
      cases verify
    · intro through
      rw [Config.arrive, Shared.started_own_self, fresh] at through
      simp [revoked, revokes] at through
  have ended : LoggingOut c.threads.length t c₁.shared :=
    holds₀.invariant tokens_sound
      (fun _ _ ledger acts logout => logout.acts secret ledger acts) begun logout
  -- the logout was answered, so it has got through
  obtain ⟨checked, through⟩ : (c₁.shared.own c.threads.length).any checks = true ∧
      revoked t (c₁.shared.own c.threads.length) = true := by
    obtain ⟨σ, rely, post⟩ := holds₁.post_ok answered
    have same : c₁.shared.own c.threads.length = σ.own c.threads.length := rely
    rw [same]
    exact (post a rfl).2 t rfl entry
  have out : LoggedOut t c₁.shared c₁.shared := by
    refine ⟨ended.settled, fun t' path => ?_, fun _ _ _ => id⟩
    by_cases newest : t' = t
    · subst newest
      exact ended.done through
    · exact ended.older checked t' path newest
  have out₂ : LoggedOut t c₁.shared c₂.shared :=
    holds₁.invariant tokens_sound (fun _ _ ledger acts out => out.acts ledger acts) out later
  exact fun t' path j => out₂.since j t' path

/-! ### Concrete runs -/

/-- Decides that a step meets `olderSpent`. -/
def isOlderSpent (σ : Shared (mikrouli P)) : Act (mikrouli P) → Bool
  | .call i (.verify _ _) _ => (revoking (σ.own i)).all fun t =>
    ((σ.log.all fun e => !((presented (σ.own e.thread)).isSome && issued t (σ.own e.thread))) ||
      (mentioned σ).all fun t' => decide (t' = t) || isSpent σ t') &&
    (decide (σ.world.now / 1000 < t.exp) || isSpent σ t)
  | .call i (.redisDel _) _ => (revoking (σ.own i)).all fun t =>
    σ.log.all fun e => !rotating t (σ.own e.thread)
  | _ => true

theorem olderSpent_of_isOlderSpent (σ : Shared (mikrouli P)) (a : Act (mikrouli P))
    (test : isOlderSpent σ a = true) : olderSpent P σ a := by
  cases a with
  | start r => trivial
  | env ms => trivial
  | call i c ch =>
    cases c with
    | verify secret token =>
      intro t asked
      simp only [isOlderSpent, asked, Option.all_some, Bool.and_eq_true, Bool.or_eq_true,
        decide_eq_true_eq, List.all_eq_true, Bool.not_eq_true'] at test
      obtain ⟨older, alive⟩ := test
      refine ⟨fun t' path other => ?_, fun expired => ?_⟩
      · rcases older with root | spent
        · -- a token that no rotation issued has no older ones
          rcases Relation.ReflTransGen.cases_tail path with rfl | ⟨a, -, j, presents, issue⟩
          · exact absurd rfl other
          · obtain ⟨e, logged, rfl⟩ := exists_logged_of_presented presents
            have none := root e logged
            rw [presents, issue] at none
            cases none
        · rcases Relation.ReflTransGen.cases_head path with rfl | ⟨b, ⟨j, presents, -⟩, -⟩
          · exact absurd rfl other
          · have member := mem_mentioned_of_presented presents
            exact spent_of_isSpent ((spent t' member).resolve_left other)
      · rcases alive with ahead | spent
        · omega
        · exact spent_of_isSpent spent
    | redisDel key =>
      intro t asked j
      simp only [isOlderSpent, asked, Option.all_some, List.all_eq_true, Bool.not_eq_true'] at test
      by_contra rotates
      rw [Bool.not_eq_false] at rotates
      have presents := (passed_eq_true.mp (rotating_eq_true.mp rotates).1).1
      obtain ⟨e, logged, rfl⟩ := exists_logged_of_presented presents
      rw [test e logged] at rotates
      cases rotates
    | _ => trivial

def oldest : Jwt := refreshToken "j" "f"

def newest : Jwt := refreshToken "j1" "f1"

/-- The first token is rotated once. -/
def rotatedOnce : List (Move (mikrouli Platform.plain)) :=
  signIn ++ .start (.rotateRefresh (.jwt oldest)) :: rotation 1 "j1" "f1"

/-- The first token is revoked before the logout with its successor. -/
theorem logout_ends_session_revoked :
    ∃ c₁ c₂ : Config (mikrouli Platform.plain), Descends c₂.shared oldest newest ∧
      (presented (c₂.shared.own 4) = some oldest ∧ presented (c₂.shared.own 5) = some newest) ∧
      Reach (olderSpent Platform.plain) c₁ c₂ ∧
      ∀ j, accepted oldest (c₂.shared.own j) = true → accepted oldest (c₁.shared.own j) = true := by
  obtain ⟨c, reach, passed⟩ := exists_reach_of_play olderSpent_of_isOlderSpent
    (initial (V := mikrouli Platform.plain) (World.empty 5000))
    (rotatedOnce ++ [.start (.revokeRefresh (.jwt oldest)), .run 2 {}, .run 2 {}])
    (fun c => issued newest (c.shared.own 1) && decide (c.threads.length = 3) &&
      ((c.arrive (.revokeRefresh (.jwt newest))).play isOlderSpent [.run 3 {}, .run 3 {}]).any
        fun c₁ => hasAnswered c₁ 3 (.revokeRefresh (.jwt newest)) &&
          (c₁.play isOlderSpent
            [.start (.rotateRefresh (.jwt oldest)), .start (.rotateRefresh (.jwt newest)),
             .run 4 {}, .run 4 {}, .run 5 {}, .run 5 {}]).any fun c₂ =>
              decide (presented (c₂.shared.own 1) = some oldest) &&
              issued newest (c₂.shared.own 1) &&
              decide (presented (c₂.shared.own 4) = some oldest) &&
              decide (presented (c₂.shared.own 5) = some newest)) (by decide +kernel)
  simp only [Bool.and_eq_true, decide_eq_true_eq] at passed
  obtain ⟨⟨issue, length⟩, again⟩ := passed
  obtain ⟨c₁, logout, passed₁⟩ := exists_reach_of_play olderSpent_of_isOlderSpent _ _ _ again
  rw [Bool.and_eq_true] at passed₁
  obtain ⟨a, answered⟩ := answered_of_hasAnswered passed₁.1
  obtain ⟨c₂, later, passed₂⟩ := exists_reach_of_play olderSpent_of_isOlderSpent _ _ _ passed₁.2
  simp only [Bool.and_eq_true, decide_eq_true_eq] at passed₂
  obtain ⟨⟨⟨asked, issue₂⟩, asked₄⟩, asked₅⟩ := passed₂
  have path : Descends c₂.shared oldest newest := .single ⟨1, asked, issue₂⟩
  rw [← length] at answered
  exact ⟨c₁, c₂, path, ⟨asked₄, asked₅⟩, later,
    logout_ends_session (fun _ => rfl) reach issue logout answered later oldest path⟩

/-- After a logout with the newest token of a chain, the token it replaced is still accepted. -/
theorem session_survives_logout :
    ¬∀ (P : Platform) (w₀ : World), (∀ f, w₀.redis (buildRevocationKey f) = none) →
      ∀ (t : Jwt) (s : Nat) (c c₁ c₂ : Config (mikrouli P)), Reach (unforged P) (initial w₀) c →
        issued t (c.shared.own s) = true → (∀ t', ¬Rotates c.shared t t') → c.Quiescent →
        Reach (unforged P) (c.arrive (.revokeRefresh (.jwt t))) c₁ →
        (∃ a, c₁.Answered c.threads.length (.revokeRefresh (.jwt t)) a) →
        Reach (unforged P) c₁ c₂ → ∀ t', Descends c₂.shared t' t →
          ∀ j, accepted t' (c₂.shared.own j) = true → accepted t' (c₁.shared.own j) = true := by
  intro ends
  obtain ⟨c, reach, passed⟩ := exists_reach_of_play unforged_of_isUnforged
    (initial (V := mikrouli Platform.plain) (World.empty 5000)) rotatedOnce
    (fun c => issued newest (c.shared.own 1) && decide (c.threads.length = 2) &&
      (c.shared.log.all fun e => decide (presented (c.shared.own e.thread) ≠ some newest)) &&
      decide c.Quiescent &&
      ((c.arrive (.revokeRefresh (.jwt newest))).play isUnforged [.run 2 {}, .run 2 {}]).any
        fun c₁ => hasAnswered c₁ 2 (.revokeRefresh (.jwt newest)) &&
          !accepted oldest (c₁.shared.own 3) &&
          (c₁.play isUnforged
            (.start (.rotateRefresh (.jwt oldest)) :: rotation 3 "j2" "f2")).any fun c₂ =>
              decide (presented (c₂.shared.own 1) = some oldest) &&
              issued newest (c₂.shared.own 1) && accepted oldest (c₂.shared.own 3))
    (by decide +kernel)
  simp only [Bool.and_eq_true, decide_eq_true_eq] at passed
  obtain ⟨⟨⟨⟨issue, length⟩, new⟩, quiescent⟩, again⟩ := passed
  obtain ⟨c₁, logout, passed₁⟩ := exists_reach_of_play unforged_of_isUnforged _ _ _ again
  simp only [Bool.and_eq_true, Bool.not_eq_true'] at passed₁
  obtain ⟨⟨ended, rejected⟩, more⟩ := passed₁
  obtain ⟨c₂, later, passed₂⟩ := exists_reach_of_play unforged_of_isUnforged _ _ _ more
  simp only [Bool.and_eq_true, decide_eq_true_eq] at passed₂
  obtain ⟨⟨asked, issue₂⟩, accept⟩ := passed₂
  have newestYet : ∀ t', ¬Rotates c.shared newest t' := by
    rintro t' ⟨j, presents, -⟩
    obtain ⟨e, logged, rfl⟩ := exists_logged_of_presented presents
    exact of_decide_eq_true (List.all_eq_true.mp new e logged) presents
  have before := ends Platform.plain (World.empty 5000) (fun _ => rfl) newest 1 c c₁ c₂ reach issue
    newestYet quiescent logout (by rw [length]; exact answered_of_hasAnswered ended) later oldest
    (.single ⟨1, asked, issue₂⟩) 3 accept
  rw [rejected] at before
  cases before

end Mikrouli
