import Mikrouli.Properties.Sessions

/-! Refresh rotation: when it is single-use, and when a replay ends the session. -/

namespace Mikrouli

open Async Store

variable {P : Platform}

variable {G : Guard (mikrouli P)} {σ σ' : Shared (mikrouli P)} {t t' : Jwt}

/-- No token is let through twice, and none that has been rotated is presented again, while the
allowlist or a call in flight could still rotate a token of its session. -/
def singleUse (P : Platform) : Guard (mikrouli P)
  | σ, .start (.rotateRefresh (.jwt t)) =>
    (∃ t', Rotates σ t t') → ∀ t', SameLogin σ t t' → Spent σ t'
  | σ, .call i (.redisGet _) _ =>
    ∀ t, presented (σ.own i) = some t → (∃ j, passed t (σ.own j) = true) →
      σ.world.lists t = false
  | _, _ => True

/-- No two threads were let through with one token. -/
def Once (σ : Shared (mikrouli P)) : Prop :=
  ∀ i j t, passed t (σ.own i) = true → passed t (σ.own j) = true → i = j

theorem Once.acts (once : Once σ) (acts : (tokens P).Acts (singleUse P) σ σ') : Once σ' := by
  cases acts with
  | start n r fresh allowed =>
    have earlier : ∀ j t, passed t ((σ.started n r).own j) = true → passed t (σ.own j) = true := by
      intro j t through
      obtain ⟨asked, pass⟩ := passed_eq_true.mp through
      obtain ⟨other, pass⟩ := any_started fresh rfl pass
      rw [presented_started other] at asked
      exact passed_eq_true.mpr ⟨asked, pass⟩
    exact fun i j t first second => once i j t (earlier i t first) (earlier j t second)
  | @call k c ch res w pre returned allowed =>
    have earlier : ∀ j t, passed t ((σ.called k c res w).own j) = true →
        (j = k ∧ ∀ i, passed t (σ.own i) = false) ∨ passed t (σ.own j) = true := by
      intro j t through
      obtain ⟨asked, pass⟩ := passed_eq_true.mp through
      rw [presented_called] at asked
      rcases Shared.any_called.mp pass with ⟨rfl, now⟩ | before
      · -- the guard lets nobody through with a token that was let through before
        obtain ⟨⟨key, rfl⟩, listed⟩ := lists_of_passes now returned
        refine .inl ⟨rfl, fun i => ?_⟩
        by_contra first
        rw [Bool.not_eq_false] at first
        rw [allowed t asked ⟨i, first⟩] at listed
        cases listed
      · exact .inr (passed_eq_true.mpr ⟨asked, before⟩)
    intro i j t first second
    rcases earlier i t first with ⟨rfl, none⟩ | before
    · rcases earlier j t second with ⟨rfl, -⟩ | before
      · rfl
      · rw [none j] at before
        cases before
    · rcases earlier j t second with ⟨rfl, none⟩ | before'
      · rw [none i] at before
        cases before
      · exact once i j t before before'
  | env ms allowed => exact once

/-- Every token of the session of `t` is spent, and none has been accepted since `σ₀`. -/
structure Contained (t : Jwt) (σ₀ σ : Shared (mikrouli P)) : Prop where
  settled : Settled σ t
  spent : ∀ t', SameLogin σ t t' → Spent σ t'
  since : ∀ j t', SameLogin σ t t' → accepted t' (σ.own j) = true → accepted t' (σ₀.own j) = true

theorem SameLogin.settled (ledger : Ledger σ) (settled : Settled σ t) :
    SameLogin σ t t' → Settled σ t' := by
  rintro ⟨root, path, path'⟩
  exact path'.settled ledger (path.settled_of ledger settled)

/-- A session whose tokens are all spent gets no new ones. -/
theorem sameLogin_acts (ledger : Ledger σ) (acts : (tokens P).Acts G σ σ') (settled : Settled σ t)
    (spent : ∀ t', SameLogin σ t t' → Spent σ t') (after : SameLogin σ' t t') :
    SameLogin σ t t' := by
  -- a new edge would start at a spent token, and such a token is not rotated
  obtain ⟨root, path, path'⟩ := after
  rcases descends_acts ledger acts path with before | ⟨a, -, -, unsettled⟩
  · rcases descends_acts ledger acts path' with before' | ⟨a, reach, ⟨i, rotates⟩, -⟩
    · exact ⟨root, before, before'⟩
    · rw [(spent a ⟨root, before, reach⟩).idle i] at rotates
      cases rotates
  · exact absurd settled unsettled

theorem Contained.acts {σ₀ : Shared (mikrouli P)} (contained : Contained t σ₀ σ)
    (ledger : Ledger σ) (acts : (tokens P).Acts G σ σ') : Contained t σ₀ σ' := by
  obtain ⟨settled, spent, since⟩ := contained
  have earlier : ∀ t', SameLogin σ' t t' → SameLogin σ t t' :=
    fun t' => sameLogin_acts ledger acts settled spent
  refine ⟨settled.acts acts, fun t' same => ?_, fun j t' same accept => ?_⟩
  · exact (spent t' (earlier t' same)).acts ledger ((earlier t' same).settled ledger settled) acts
  · rcases accepted_acts acts accept with before | rotates
    · exact since j t' (earlier t' same) before
    · rw [(spent t' (earlier t' same)).idle j] at rotates
      cases rotates

/-- A call that was answered with tokens had been let through with its token and issued them. -/
theorem answered_rotation {c : Config (mikrouli P)} (holds : (tokens P).Holds G c) {i : Nat}
    {a : Ans} (answered : c.Answered i (.rotateRefresh (.jwt t)) a) :
    ∃ t', presented (c.shared.own i) = some t ∧ issued t' (c.shared.own i) = true := by
  obtain ⟨σ, rely, post⟩ := holds.post_ok answered
  have same : c.shared.own i = σ.own i := rely
  obtain ⟨asked, tokens, -, issue⟩ := (post a rfl).1 t rfl
  exact ⟨tokens.tokens.refreshToken, by rw [same]; exact asked, by rw [same]; exact issue⟩

/-- As long as no token is let through twice, and none that has been rotated is presented again
while its session could still be used: every token is rotated at most once, and a rotated token
that is presented again is rejected, after which no token of its session is accepted. -/
theorem rotation_single_use {w₀ : World} (cold : ∀ f, w₀.redis (buildRevocationKey f) = none)
    {c : Config (mikrouli P)} (reach : Reach (singleUse P) (initial w₀) c) :
    (∀ t i j a b, c.Answered i (.rotateRefresh (.jwt t)) a →
      c.Answered j (.rotateRefresh (.jwt t)) b → i = j) ∧
    ∀ t, (∃ t', Rotates c.shared t t') → singleUse P c.shared (.start (.rotateRefresh (.jwt t))) →
      ∀ c', Reach (singleUse P) (c.arrive (.rotateRefresh (.jwt t))) c' →
        (∀ a, ¬c'.Answered c.threads.length (.rotateRefresh (.jwt t)) a) ∧
        ∀ j t', SameLogin c'.shared t t' → accepted t' (c'.shared.own j) = true →
          accepted t' (c.shared.own j) = true := by
  have holds₀ : (tokens P).Holds (singleUse P) (initial w₀) := tokens_initial cold
  have holds := holds₀.reach tokens_sound reach
  constructor
  -- two answers for one token come from two threads that were let through with it
  · have once : Once c.shared :=
      holds₀.invariant tokens_sound (fun _ _ _ acts once => once.acts acts)
        (fun i j t first => by cases first) reach
    intro t i j a b first second
    obtain ⟨t₁, asked₁, issue₁⟩ := answered_rotation holds first
    obtain ⟨t₂, asked₂, issue₂⟩ := answered_rotation holds second
    have through₁ := holds.inv.accepted i t (accepted_of_rotates asked₁ issue₁)
    have through₂ := holds.inv.accepted j t (accepted_of_rotates asked₂ issue₂)
    exact once i j t through₁ through₂
  · rintro t ⟨t', edge⟩ allowed c' later
    -- the replay is a thread of its own, with nothing accepted yet
    have fresh : c.shared.own c.threads.length = [] := own_nil_of_logged holds.logged
    have arrives : Step (singleUse P) c (c.arrive (.rotateRefresh (.jwt t))) := .start _ allowed
    have holds₁ := holds.step tokens_sound arrives
    have contained₀ : Contained t c.shared c.shared :=
      ⟨edge.settled_source holds.inv, allowed ⟨t', edge⟩, fun _ _ _ => id⟩
    have contained : Contained t c.shared c'.shared :=
      holds₁.invariant tokens_sound (fun _ _ ledger acts contained => contained.acts ledger acts)
        (contained₀.acts holds.inv (holds.acts arrives)) later
    refine ⟨fun a thread => ?_, contained.since⟩
    obtain ⟨t₁, asked, issue⟩ := answered_rotation (holds₁.reach tokens_sound later) thread
    have accept := contained.since _ t ⟨t, .refl, .refl⟩ (accepted_of_rotates asked issue)
    rw [fresh] at accept
    cases accept

/-! ### Concrete runs -/

/-- Decides that a step meets `singleUse`: the token is new to the run or its session is spent. -/
def isSingleUse (σ : Shared (mikrouli P)) : Act (mikrouli P) → Bool
  | .start (.rotateRefresh (.jwt t)) =>
    (σ.log.all fun e => decide (presented (σ.own e.thread) ≠ some t)) ||
      (t :: mentioned σ).all (isSpent σ)
  | .call i (.redisGet _) _ =>
    (presented (σ.own i)).all fun t =>
      !σ.world.lists t || σ.log.all fun e => !passed t (σ.own e.thread)
  | _ => true

theorem singleUse_of_isSingleUse (σ : Shared (mikrouli P)) (a : Act (mikrouli P))
    (test : isSingleUse σ a = true) : singleUse P σ a := by
  cases a with
  | start r =>
    unfold singleUse
    split
    next t same =>
      cases same
      rintro ⟨t', i, asked, -⟩ t' mate
      rcases Bool.or_eq_true_iff.mp test with new | spent
      · obtain ⟨e, logged, rfl⟩ := exists_logged_of_presented asked
        have other := of_decide_eq_true (List.all_eq_true.mp new e logged)
        exact absurd asked other
      · apply spent_of_isSpent
        apply List.all_eq_true.mp spent
        rcases mem_mentioned_of_sameLogin mate with rfl | member
        · exact List.mem_cons_self
        · exact List.mem_cons_of_mem _ member
    next same => cases same
    · trivial
  | call i c ch =>
    cases c with
    | redisGet key =>
      rintro t asked ⟨j, through⟩
      simp only [isSingleUse, asked, Option.all_some, Bool.or_eq_true, Bool.not_eq_true',
        List.all_eq_true] at test
      rcases test with gone | none
      · exact gone
      · obtain ⟨e, logged, rfl⟩ := exists_logged_of_presented (passed_eq_true.mp through).1
        rw [none e logged] at through
        cases through
    | _ => trivial
  | env ms => trivial

def first : Jwt := refreshToken "j" "f"

/-- The first token is rotated, it and its successor are revoked, and it is presented again. -/
def replay : List (Move (mikrouli Platform.plain)) :=
  signIn ++ .start (.rotateRefresh (.jwt first)) :: rotation 1 "j1" "f1" ++
    [.start (.revokeRefresh (.jwt first)), .run 2 {}, .run 2 {},
     .start (.revokeRefresh (.jwt (refreshToken "j1" "f1"))), .run 3 {}, .run 3 {}]

theorem rotation_single_use_replay :
    ∃ c c' : Config (mikrouli Platform.plain), Rotates c.shared first (refreshToken "j1" "f1") ∧
      Reach (singleUse Platform.plain) (c.arrive (.rotateRefresh (.jwt first))) c' ∧
      c'.shared.log.length = c.shared.log.length + 3 ∧
      ∀ a, ¬c'.Answered c.threads.length (.rotateRefresh (.jwt first)) a := by
  obtain ⟨c, reach, passed⟩ := exists_reach_of_play singleUse_of_isSingleUse
    (initial (V := mikrouli Platform.plain) (World.empty 5000)) replay
    (fun c => decide (presented (c.shared.own 1) = some first) &&
      issued (refreshToken "j1" "f1") (c.shared.own 1) &&
      isSingleUse c.shared (.start (.rotateRefresh (.jwt first))) &&
      ((c.arrive (.rotateRefresh (.jwt first))).play isSingleUse
        [.run c.threads.length {}, .run c.threads.length {}]).any fun c' =>
          decide (c'.shared.log.length = c.shared.log.length + 3)) (by decide +kernel)
  simp only [Bool.and_eq_true, decide_eq_true_eq] at passed
  obtain ⟨⟨⟨asked, issue⟩, ready⟩, again⟩ := passed
  have edge : Rotates c.shared first (refreshToken "j1" "f1") := ⟨1, asked, issue⟩
  obtain ⟨c', later, length⟩ := exists_reach_of_play singleUse_of_isSingleUse _ _ _ again
  have contained := (rotation_single_use (fun _ => rfl) reach).2 first ⟨_, edge⟩
    (singleUse_of_isSingleUse _ _ ready) c' later
  exact ⟨c, c', edge, later, of_decide_eq_true length, contained.1⟩

/-- A token that has been rotated is let through again. -/
theorem refresh_token_reused :
    ¬∀ (P : Platform) (w₀ : World), (∀ f, w₀.redis (buildRevocationKey f) = none) →
      ∀ c, Reach (unforged P) (initial w₀) c →
        ∀ t i j a b, c.Answered i (.rotateRefresh (.jwt t)) a →
          c.Answered j (.rotateRefresh (.jwt t)) b → i = j := by
  intro once
  obtain ⟨c, reach, passed⟩ := exists_reach_of_play unforged_of_isUnforged
    (initial (V := mikrouli Platform.plain) (World.empty 5000))
    (signIn ++ .start (.rotateRefresh (.jwt first)) :: rotation 1 "j1" "f1" ++
      .start (.rotateRefresh (.jwt first)) :: rotation 2 "j2" "f2")
    (fun c => hasAnswered c 1 (.rotateRefresh (.jwt first)) &&
      hasAnswered c 2 (.rotateRefresh (.jwt first))) (by decide +kernel)
  rw [Bool.and_eq_true] at passed
  obtain ⟨a, answered₁⟩ := answered_of_hasAnswered passed.1
  obtain ⟨b, answered₂⟩ := answered_of_hasAnswered passed.2
  have same := once Platform.plain (World.empty 5000) (fun _ => rfl) c reach first 1 2 a b
    answered₁ answered₂
  cases same

end Mikrouli
