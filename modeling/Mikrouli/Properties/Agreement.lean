import Mikrouli.Properties.SignIn
import Mikrouli.Properties.Sessions

/-! When concurrent sign-ins with one GitHub identity agree. -/

namespace Mikrouli

open Async Store

variable {P : Platform} {identity : GithubIdentity}

/-- A second transaction that has found no account of the identity and not yet saved its own. -/
def Progress.exposed (s : Progress) : Bool :=
  s.again && match s.stage with
    | .unlinked | .unused | .created _ | .chosen _ => true
    | _ => false

/-- No account is committed while a second transaction relies on its absence. -/
def undisturbed (P : Platform) (identity : GithubIdentity) : Guard (mikrouli P)
  | σ, .call i .commit ch => racing P identity σ (.call i .commit ch) ∧
      ∀ user, (progress (σ.own i)).stage = .saved user →
        ∀ j, (progress (σ.own j)).exposed = false
  | σ, a => racing P identity σ a

theorem racing_of_undisturbed (σ : Shared (mikrouli P)) (a : Act (mikrouli P))
    (allowed : undisturbed P identity σ a) : racing P identity σ a := by
  unfold undisturbed at allowed
  split at allowed
  · exact allowed.1
  · exact allowed

/-- A second transaction never fails: what it relies on stays so. -/
structure Calm (identity : GithubIdentity) (σ : Shared (mikrouli P)) : Prop where
  exposed : ∀ i, (progress (σ.own i)).exposed = true → ¬σ.world.Linked identity
  failed : ∀ i violation, (progress (σ.own i)).stage = .failed violation →
    (progress (σ.own i)).again = false
  succeeds : ∀ i, (progress (σ.own i)).stage ≠ .gaveUp

section Calm

variable {σ σ' : Shared (mikrouli P)} {i : Nat} {c : Cmd} {ch : Choice} {w w' : World}
  {res : Except AppError c.Res}

/-- Only the commit of a saved account links the identity. -/
theorem Turn.linked_before {s s' : Progress} (turn : Turn identity i w w' s s')
    (own : ∀ v ∈ w.providerAccounts.rows, v.tx = some i → ∃ user : User, s.stage = .saved user)
    (linked : w'.Linked identity) :
    w.Linked identity ∨ (∃ user : User, s.stage = .saved user) ∧ w' = w.commit i := by
  obtain ⟨account, committed, same⟩ := linked
  rcases turn.effect with still | ⟨user, -, -, -, -, -, accounts⟩ |
    ⟨user, account', -, -, -, -, -, accounts⟩ | rfl | rfl
  · rw [still.accounts] at committed
    exact .inl ⟨account, committed, same⟩
  · rw [accounts] at committed
    exact .inl ⟨account, committed, same⟩
  · rw [accounts] at committed
    rcases List.mem_cons.mp committed with now | before
    · cases now
    · exact .inl ⟨account, before, same⟩
  · obtain ⟨v', there, same'⟩ := mem_providerAccounts_commit.mp committed
    obtain ⟨-, ⟨rfl, -⟩ | ⟨tx, -⟩⟩ := commitRows_cases same'
    · exact .inl ⟨account, there, same⟩
    · exact .inr ⟨own v' there tx, rfl⟩
  · exact .inl ⟨account, (mem_providerAccounts_rollback.mp committed).1, same⟩

/-- A turn exposes a transaction only where the identity is not linked. -/
theorem Turn.exposed {s s' : Progress} (turn : Turn identity i w w' s s')
    (before : s.exposed = true → ¬w.Linked identity) (exposed : s'.exposed = true) :
    ¬w.Linked identity := by
  cases turn with
  | missed still unlinked => exact unlinked
  | found | free | reread => exact before exposed
  | create early =>
    rcases early with ⟨rfl, rfl⟩ | rfl
    · simp [Progress.exposed] at exposed
    · exact before exposed
  | undo =>
    simp only [Progress.undone] at exposed
    split at exposed <;> simp [Progress.exposed] at exposed
  | _ => simp [Progress.exposed] at exposed

/-- A commit exposes nothing. -/
theorem Turn.hidden {s s' : Progress} (turn : Turn identity i w w' s s') {user : User}
    (saved : s.stage = .saved user) : s'.exposed = false := by
  cases turn with
  | link => simp [Progress.exposed]
  | create early | taken early => rcases early with ⟨rfl, -⟩ | rfl <;> cases saved
  | _ => cases saved

/-- A turn fails a transaction only where it is the first. -/
theorem Turn.failed {s s' : Progress} (turn : Turn identity i w w' s s')
    (standing : Standing identity w i s) (before : s.exposed = true → ¬w.Linked identity)
    {violation : Bool} (failed : s'.stage = .failed violation) : s'.again = false := by
  cases turn with
  | taken early =>
    rcases early with ⟨-, first⟩ | rfl
    · exact first
    · exact standing.2
  | @lost again user still linked =>
    -- a retry that was still to save would have seen this account as missing
    refine Bool.eq_false_iff.mpr fun retried => before ?_ linked
    simpa [Progress.exposed] using retried
  | undo =>
    simp only [Progress.undone] at failed
    split at failed <;> cases failed
  | _ => cases failed

/-- A first transaction that failed is followed by a second. -/
theorem Turn.succeeds {s s' : Progress} (turn : Turn identity i w w' s s')
    (standing : Standing identity w i s)
    (first : ∀ violation, s.stage = .failed violation → s.again = false) : s'.stage ≠ .gaveUp := by
  cases turn with
  | @undo again violation =>
    -- it is a first transaction, so the rollback leads to a second one
    have again_eq : again = false := first violation rfl
    have violation_eq : violation = true := standing.2.1
    subst again_eq violation_eq
    simp [Progress.undone]
  | _ => simp

theorem Calm.called (calm : Calm identity σ) (race : Race identity σ) (rooted : Rooted σ)
    (pre : (accounts P).Pre i c σ) (returned : exec P i c ch σ.world = some (res, w))
    (allowed : undisturbed P identity σ (.call i c ch)) :
    Calm identity (σ.called i c res w) := by
  have works : ch.fault = none := racing_of_undisturbed _ _ allowed
  have turn := race.turn rooted pre returned works
  have own : progress ((σ.called i c res w).own i) =
      (progress (σ.own i)).next (P := P) (.call c res) := by
    rw [Shared.called_own_self, progress]
  have saves : ∀ v ∈ σ.world.providerAccounts.rows, v.tx = some i →
      ∃ user : User, (progress (σ.own i)).stage = .saved user := by
    intro v member tx
    obtain ⟨user, saved, -⟩ := race.openAccounts v member i tx
    exact ⟨user, saved⟩
  constructor
  case exposed =>
    intro j exposed linked
    rw [Shared.called_world] at linked
    by_cases same : j = i
    · subst same
      rw [own] at exposed
      -- before the turn the identity was unlinked, or the turn commits a saved account
      rcases turn.linked_before saves linked with before | ⟨⟨user, saved⟩, -⟩
      · exact turn.exposed (calm.exposed j) exposed before
      · rw [turn.hidden saved] at exposed
        cases exposed
    · rw [Shared.called_own_of_ne same] at exposed
      rcases turn.linked_before saves linked with before | ⟨⟨user, saved⟩, -⟩
      · exact calm.exposed j exposed before
      · -- such a commit would disturb thread `j`
        obtain rfl := race.commits pre saved
        rw [allowed.2 user saved j] at exposed
        cases exposed
  case failed =>
    intro j violation failed
    by_cases same : j = i
    · subst same
      rw [own] at failed ⊢
      exact turn.failed (race.standing j) (calm.exposed j) failed
    · rw [Shared.called_own_of_ne same] at failed ⊢
      exact calm.failed j violation failed
  case succeeds =>
    intro j
    by_cases same : j = i
    · subst same
      rw [own]
      exact turn.succeeds (race.standing j) (calm.failed j)
    · rw [Shared.called_own_of_ne same]
      exact calm.succeeds j

theorem Calm.acts (calm : Calm identity σ) (race : Race identity σ) (rooted : Rooted σ)
    (acts : (accounts P).Acts (undisturbed P identity) σ σ') : Calm identity σ' := by
  cases acts with
  | start n r fresh allowed =>
    constructor
    · intro j
      rw [progress_started]
      exact calm.exposed j
    · intro j
      rw [progress_started]
      exact calm.failed j
    · intro j
      rw [progress_started]
      exact calm.succeeds j
  | call pre returned allowed => exact calm.called race rooted pre returned allowed
  | env ms allowed => exact ⟨calm.exposed, calm.failed, calm.succeeds⟩

theorem Calm.initial (w₀ : World) : Calm (P := P) identity ⟨w₀, []⟩ :=
  ⟨fun i exposed => (by cases exposed), fun i violation failed => (by cases failed),
    fun i => by simp [progress, Shared.own]⟩

end Calm

/-- As long as no account of the identity is committed between the lookup of a second transaction
and its own insertion: no sign-in fails, all answer with one user, the identity and the email end
up with one row each, and every request can be answered. -/
theorem sign_ins_agree {w₀ : World} (unlinked : w₀.Unlinked identity)
    {c : Config (mikrouli P)} (reach : Reach (undisturbed P identity) (initial w₀) c) :
    (∀ i, ¬c.Failed i (.findOrCreateFromProvider identity)) ∧
    (∀ i j a b, c.Answered i (.findOrCreateFromProvider identity) a →
      c.Answered j (.findOrCreateFromProvider identity) b →
      ∃ user user' : User, a = .account user ∧ b = .account user' ∧ user.id = user'.id) ∧
    (c.Quiescent → (∃ i, c.Asked i (.findOrCreateFromProvider identity)) →
      c.shared.world.providerAccounts.count
        (fun v => decide (v.row.providerUserId = identity.providerUserId)) = 1 ∧
      c.shared.world.users.count (fun v => decide (v.row.email = identity.email)) = 1) ∧
    ∃ c', Reach (racing P identity) c c' ∧ c'.Quiescent := by
  have holds₀ : (accounts P).Holds (undisturbed P identity) (initial w₀) := accounts_initial w₀
  have holds := holds₀.reach accounts_sound reach
  obtain ⟨race, calm⟩ : Race identity c.shared ∧ Calm identity c.shared := by
    refine holds₀.invariant (J := fun σ => Race identity σ ∧ Calm identity σ) accounts_sound ?_
      ⟨.initial unlinked, .initial w₀⟩ reach
    rintro σ σ' rooted acts ⟨race, calm⟩
    exact ⟨race.acts rooted racing_of_undisturbed acts, calm.acts race rooted acts⟩
  have succeeds : ∀ i, ¬c.Failed i (.findOrCreateFromProvider identity) := by
    rintro i ⟨e, thread⟩
    obtain ⟨σ, rely, -, stage⟩ := holds.post_error thread
    have own : c.shared.own i = σ.own i := rely
    have gaveUp : (progress (σ.own i)).stage = .gaveUp := stage
    rw [← own] at gaveUp
    exact calm.succeeds i gaveUp
  refine ⟨succeeds, ?_, ?_, racing_completes unlinked (reach.weaken racing_of_undisturbed)⟩
  · intro i j a b first second
    obtain ⟨user, rfl, committed, email, -⟩ := race.answered holds first
    obtain ⟨user', rfl, committed', email', -⟩ := race.answered holds second
    have row := Table.eq_of_key (k := fun v : Versioned User => v.row.email) (by simp) committed
      committed' (email.trans email'.symm)
    -- the email is a key: both answers are one row
    cases row
    exact ⟨user, user, rfl, rfl, rfl⟩
  -- the answer of any one sign-in names both rows, and their keys make them the only ones
  · rintro quiescent ⟨i, p, thread⟩
    have ended := quiescent _ (List.mem_of_getElem? thread)
    cases p with
    | await cmd k => exact absurd ended id
    | fail e => exact absurd ⟨e, thread⟩ (succeeds i)
    | done a =>
      obtain ⟨user, rfl, committed, email, account, linked, same⟩ := race.answered holds thread
      exact ⟨Table.count_eq_one (k := fun v : Versioned ProviderAccount => v.row.providerUserId)
          (by simp) linked same,
        Table.count_eq_one (k := fun v : Versioned User => v.row.email) (by simp) committed email⟩

/-! ### Concrete runs -/

section Play

variable {σ : Shared (mikrouli P)}

def isRacing (identity : GithubIdentity) (_ : Shared (mikrouli P)) : Act (mikrouli P) → Bool
  | .start (.findOrCreateFromProvider identity') => decide (identity' = identity)
  | .start (.register email _) => decide (email = identity.email)
  | .start _ => false
  | .call _ _ ch => decide (ch.fault = none)
  | .env _ => true

theorem racing_of_isRacing (σ : Shared (mikrouli P)) (a : Act (mikrouli P))
    (test : isRacing identity σ a = true) : racing P identity σ a := by
  unfold isRacing at test
  split at test
  · exact .inl (by rw [of_decide_eq_true test])
  next password => exact .inr ⟨password, by rw [of_decide_eq_true test]⟩
  · cases test
  next i c ch =>
    have works : ch.fault = none := of_decide_eq_true test
    exact works
  · trivial

/-- Decides that a step is a racing one and commits nothing while a second transaction is exposed. -/
def isUndisturbed (identity : GithubIdentity) (σ : Shared (mikrouli P)) (a : Act (mikrouli P)) :
    Bool :=
  isRacing identity σ a && match a with
    | .call _ .commit _ => σ.log.all fun e => !(progress (σ.own e.thread)).exposed
    | _ => true

theorem undisturbed_of_isUndisturbed (σ : Shared (mikrouli P)) (a : Act (mikrouli P))
    (test : isUndisturbed identity σ a = true) : undisturbed P identity σ a := by
  simp only [isUndisturbed, Bool.and_eq_true] at test
  have races := racing_of_isRacing σ a test.1
  unfold undisturbed
  split
  next i ch =>
    refine ⟨races, fun user _ j => ?_⟩
    by_cases seen : j ∈ σ.log.map Entry.thread
    · obtain ⟨e, logged, rfl⟩ := List.mem_map.mp seen
      simpa using List.all_eq_true.mp test.2 e logged
    -- a thread without an entry has no second transaction
    · rw [Shared.own_eq_nil_of_not_mem seen]
      rfl
  · exact races

def hasFailed (c : Config (mikrouli P)) (i : Nat) (r : Req) : Bool :=
  match c.threads[i]? with
  | some (r', .fail _) => decide (r' = r)
  | _ => false

theorem failed_of_hasFailed {c : Config (mikrouli P)} {i : Nat} {r : Req}
    (test : hasFailed c i r = true) : c.Failed i r := by
  unfold hasFailed at test
  split at test
  next r' e thread =>
    rw [of_decide_eq_true test] at thread
    exact ⟨e, thread⟩
  · cases test

end Play

def octocat : GithubIdentity := ⟨"g", "u@ab.cd"⟩

/-- A sign-in misses both lookups, a registration commits, and the sign-in starts over. -/
def lostToRegistration : List (Move (mikrouli Platform.plain)) :=
  [.start (.findOrCreateFromProvider octocat), .run 0 {}, .run 0 {},
   .start (.register "u@ab.cd" "p"), .run 1 { draw := "salt" }, .run 1 { draw := "u" }, .run 1 {},
   .run 0 { draw := "x" }, .run 0 {}, .run 0 {}]

theorem empty_unlinked : (World.empty 5000).Unlinked octocat := by
  constructor <;> simp [World.empty]

/-- The second transaction of a sign-in links the user of the registration that it lost to. -/
theorem sign_ins_agree_lostToRegistration :
    ∃ c : Config (mikrouli Platform.plain), c.Asked 0 (.findOrCreateFromProvider octocat) ∧
      c.Quiescent ∧
      c.shared.world.providerAccounts.count
        (fun v => decide (v.row.providerUserId = octocat.providerUserId)) = 1 ∧
      c.shared.world.users.count (fun v => decide (v.row.email = octocat.email)) = 1 := by
  obtain ⟨c, reach, passed⟩ := exists_reach_of_play (G := undisturbed Platform.plain octocat)
    undisturbed_of_isUndisturbed (initial (World.empty 5000))
    (lostToRegistration ++ [.run 0 {}, .run 0 { draw := "a" }, .run 0 {}])
    (fun c => hasAnswered c 0 (.findOrCreateFromProvider octocat) && decide c.Quiescent)
    (by decide +kernel)
  rw [Bool.and_eq_true, decide_eq_true_eq] at passed
  obtain ⟨a, answered⟩ := answered_of_hasAnswered passed.1
  have asked : c.Asked 0 (.findOrCreateFromProvider octocat) := ⟨_, answered⟩
  exact ⟨c, asked, passed.2,
    (sign_ins_agree empty_unlinked reach).2.2.1 passed.2 ⟨0, asked⟩⟩

/-- A sign-in that loses to a registration and then to another sign-in fails. -/
theorem sign_in_loses_twice :
    ¬∀ (P : Platform) (identity : GithubIdentity) (w₀ : World), w₀.Unlinked identity →
      ∀ c : Config (mikrouli P), Reach (racing P identity) (initial w₀) c → c.Quiescent →
        (∀ i, c.Asked i (.findOrCreateFromProvider identity) →
          ∃ user, c.Answered i (.findOrCreateFromProvider identity) (.account user)) ∧
        (∀ (i j : Nat) (user user' : User),
          c.Answered i (.findOrCreateFromProvider identity) (.account user) →
          c.Answered j (.findOrCreateFromProvider identity) (.account user') →
          user.id = user'.id) ∧
        ((∃ i, c.Asked i (.findOrCreateFromProvider identity)) →
          c.shared.world.providerAccounts.count
            (fun v => decide (v.row.providerUserId = identity.providerUserId)) = 1 ∧
          c.shared.world.users.count (fun v => decide (v.row.email = identity.email)) = 1) := by
  intro agree
  obtain ⟨c, reach, passed⟩ := exists_reach_of_play (G := racing Platform.plain octocat)
    racing_of_isRacing (initial (World.empty 5000))
    (lostToRegistration ++
      [.start (.findOrCreateFromProvider octocat), .run 2 {}, .run 2 {}, .run 2 { draw := "a" },
       .run 2 {}, .run 0 {}, .run 0 { draw := "b" }, .run 0 {}])
    (fun c => hasFailed c 0 (.findOrCreateFromProvider octocat) && decide c.Quiescent)
    (by decide +kernel)
  rw [Bool.and_eq_true, decide_eq_true_eq] at passed
  obtain ⟨e, failed⟩ := failed_of_hasFailed passed.1
  obtain ⟨user, answered⟩ :=
    (agree Platform.plain octocat _ empty_unlinked c reach passed.2).1 0 ⟨_, failed⟩
  rw [Config.Answered, failed] at answered
  cases answered

end Mikrouli
