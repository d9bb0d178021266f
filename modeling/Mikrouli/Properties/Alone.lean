import Mikrouli.Lib.Recorded
import Mikrouli.Model.Commands
import Mikrouli.Model.Auth

/-! Rules for account and session requests that run on their own: nothing but the clock moves
between two of their commands, and a test says which choices the environment may make. -/

namespace Mikrouli

open Async Store

variable (P : Platform) (allowed : Choice → Prop)

def alone : Setting (machine P) where
  allow _ ch _ := allowed ch
  drift w w' := ∃ ms, w' = w.advance ms

/-- Some command may do what it is there for. -/
abbrev MayWork : Prop := ∃ ch, allowed ch ∧ ch.fault = none

/-- Some command may fail. -/
abbrev MayFail : Prop := ∃ ch, allowed ch ∧ ch.fault ≠ none

/-- No transaction is under way, and the ids of the accounts tables were drawn. -/
structure World.Settled (w : World) : Prop where
  users : ∀ v ∈ w.users.rows, v.tx = none ∧ v.row.id ∈ w.drawn
  accounts : ∀ v ∈ w.providerAccounts.rows, v.tx = none ∧ v.row.id ∈ w.drawn

/-- From `w` to `w'` rows were inserted under `tx`, and nothing else was written. -/
structure World.Adds (tx : Option Nat) (us : List User) (as : List ProviderAccount)
    (w w' : World) : Prop where
  users : w'.users.rows = us.map (fun user => ⟨user, tx⟩) ++ w.users.rows
  accounts : w'.providerAccounts.rows =
    as.map (fun account => ⟨account, tx⟩) ++ w.providerAccounts.rows
  redis : w'.redis = w.redis
  apiKeys : w'.apiKeys = w.apiKeys
  signed : w'.signed = w.signed
  drawn : w.drawn ⊆ w'.drawn

variable {P allowed} {i : Nat} {w w' : World} {tx : Option Nat} {us : List User}
  {as : List ProviderAccount}

/-! ### Tables -/

theorem World.Adds.refl (w : World) : World.Adds tx [] [] w w :=
  ⟨rfl, rfl, rfl, rfl, rfl, List.Subset.refl _⟩

theorem World.Adds.advance (adds : World.Adds tx us as w w') (ms : Nat) :
    World.Adds tx us as w (w'.advance ms) :=
  ⟨adds.users, adds.accounts, adds.redis, adds.apiKeys, adds.signed, adds.drawn⟩

theorem World.Adds.of_advance {ms : Nat} (adds : World.Adds tx us as (w.advance ms) w') :
    World.Adds tx us as w w' :=
  ⟨adds.users, adds.accounts, adds.redis, adds.apiKeys, adds.signed, adds.drawn⟩

/-- What one transaction inserts it may insert in two steps. -/
theorem World.Adds.trans {us' : List User} {as' : List ProviderAccount} {w₁ w₂ w₃ : World}
    (first : World.Adds tx us as w₁ w₂) (second : World.Adds tx us' as' w₂ w₃) :
    World.Adds tx (us' ++ us) (as' ++ as) w₁ w₃ where
  users := by rw [second.users, first.users, List.map_append, List.append_assoc]
  accounts := by rw [second.accounts, first.accounts, List.map_append, List.append_assoc]
  redis := second.redis.trans first.redis
  apiKeys := second.apiKeys.trans first.apiKeys
  signed := second.signed.trans first.signed
  drawn := fun _ old => second.drawn (first.drawn old)

theorem commitRows_settled {V : Type} {rows : List (Versioned V)}
    (settled : ∀ v ∈ rows, v.tx = none) :
    rows.map (fun v => World.commitRows i v) = rows := by
  have same : ∀ v ∈ rows, World.commitRows i v = id v := by
    intro v member
    exact commitRows_of_ne (by simp [settled v member])
  exact (List.map_congr_left same).trans (List.map_id rows)

theorem commitRows_added {V : Type} (added : List V) {rows : List (Versioned V)}
    (settled : ∀ v ∈ rows, v.tx = none) :
    (added.map (fun row => (⟨row, some i⟩ : Versioned V)) ++ rows).map
        (fun v => World.commitRows i v) =
      added.map (fun row => (⟨row, none⟩ : Versioned V)) ++ rows := by
  rw [List.map_append, commitRows_settled settled, List.map_map]
  congr 1
  exact List.map_congr_left fun row _ => commitRows_own row

theorem filter_added {V : Type} (added : List V) {rows : List (Versioned V)}
    (settled : ∀ v ∈ rows, v.tx = none) :
    (added.map (fun row => (⟨row, some i⟩ : Versioned V)) ++ rows).filter
        (fun v => !decide (v.tx = some i)) = rows := by
  rw [List.filter_append, List.filter_eq_nil_iff.mpr, List.nil_append, List.filter_eq_self.mpr]
  · intro v member
    simp [settled v member]
  · intro v member
    obtain ⟨row, -, rfl⟩ := List.mem_map.mp member
    simp

theorem World.Adds.commit (settled : w.Settled) (adds : World.Adds (some i) us as w w') :
    World.Adds none us as w (w'.commit i) where
  users := by
    have rows : (w'.commit i).users.rows = w'.users.rows.map fun v => World.commitRows i v := by
      simp [World.commit, Table.update]
    rw [rows, adds.users, commitRows_added us fun v member => (settled.users v member).1]
  accounts := by
    have rows : (w'.commit i).providerAccounts.rows =
        w'.providerAccounts.rows.map fun v => World.commitRows i v := by
      simp [World.commit, Table.update]
    rw [rows, adds.accounts, commitRows_added as fun v member => (settled.accounts v member).1]
  redis := adds.redis
  apiKeys := adds.apiKeys
  signed := adds.signed
  drawn := adds.drawn

theorem World.Adds.rollback (settled : w.Settled) (adds : World.Adds (some i) us as w w') :
    World.Adds none [] [] w (w'.rollback i) where
  users := by
    have rows : (w'.rollback i).users.rows =
        w'.users.rows.filter fun v => !decide (v.tx = some i) := rfl
    rw [rows, adds.users, filter_added us fun v member => (settled.users v member).1]
    rfl
  accounts := by
    have rows : (w'.rollback i).providerAccounts.rows =
        w'.providerAccounts.rows.filter fun v => !decide (v.tx = some i) := rfl
    rw [rows, adds.accounts, filter_added as fun v member => (settled.accounts v member).1]
    rfl
  redis := adds.redis
  apiKeys := adds.apiKeys
  signed := adds.signed
  drawn := adds.drawn

theorem World.Settled.advance (settled : w.Settled) (ms : Nat) : (w.advance ms).Settled :=
  ⟨settled.users, settled.accounts⟩

theorem World.Settled.adds (settled : w.Settled) (adds : World.Adds none us as w w')
    (users : ∀ user ∈ us, user.id ∈ w'.drawn) (accounts : ∀ account ∈ as, account.id ∈ w'.drawn) :
    w'.Settled := by
  constructor
  · intro v member
    rw [adds.users, List.mem_append, List.mem_map] at member
    rcases member with ⟨user, new, rfl⟩ | old
    · exact ⟨rfl, users user new⟩
    · obtain ⟨committed, drawn⟩ := settled.users v old
      exact ⟨committed, adds.drawn drawn⟩
  · intro v member
    rw [adds.accounts, List.mem_append, List.mem_map] at member
    rcases member with ⟨account, new, rfl⟩ | old
    · exact ⟨rfl, accounts account new⟩
    · obtain ⟨committed, drawn⟩ := settled.accounts v old
      exact ⟨committed, adds.drawn drawn⟩

/-- Settled tables are read the same by every transaction. -/
theorem World.Settled.userByEmail (settled : w.Settled) {email : String} {user : User} :
    w.userByEmail i email = some user ↔ ⟨user, none⟩ ∈ w.users.rows ∧ user.email = email := by
  constructor
  · intro found
    obtain ⟨v, member, rfl, -, same⟩ := World.userByEmail_eq_some found
    have committed := (settled.users v member).1
    cases v
    cases committed
    exact ⟨member, same⟩
  · rintro ⟨member, same⟩
    cases found : w.userByEmail i email with
    | none =>
      exact absurd same (World.userByEmail_eq_none found _ member (by simp [Versioned.visible]))
    | some other =>
      obtain ⟨v, member', rfl, -, same'⟩ := World.userByEmail_eq_some found
      have one := Table.eq_of_key (t := w.users) (k := fun v => v.row.email) (by simp) member member'
        (same.trans same'.symm)
      rw [← one]

theorem World.Settled.userByEmail_none (settled : w.Settled) {email : String} :
    w.userByEmail i email = none ↔ ∀ v ∈ w.users.rows, v.row.email ≠ email := by
  constructor
  · intro missing v member
    exact World.userByEmail_eq_none missing v member
      (by simp [Versioned.visible, (settled.users v member).1])
  · intro unused
    cases found : w.userByEmail i email with
    | none => rfl
    | some user =>
      obtain ⟨member, same⟩ := settled.userByEmail.mp found
      exact absurd same (unused _ member)

theorem World.Settled.userById (settled : w.Settled) {id : String} {user : User}
    (found : w.userById i id = some user) : ⟨user, none⟩ ∈ w.users.rows ∧ user.id = id := by
  obtain ⟨v, member, rfl, -, same⟩ := World.userById_eq_some found
  have committed := (settled.users v member).1
  cases v
  cases committed
  exact ⟨member, same⟩

theorem World.Settled.userById_none (settled : w.Settled) {id : String}
    (missing : w.userById i id = none) : ∀ v ∈ w.users.rows, v.row.id ≠ id := by
  intro v member
  exact World.userById_eq_none missing v member
    (by simp [Versioned.visible, (settled.users v member).1])

theorem World.Settled.providerAccount (settled : w.Settled) {providerUserId : String}
    {account : ProviderAccount} (found : w.providerAccount i providerUserId = some account) :
    ⟨account, none⟩ ∈ w.providerAccounts.rows ∧ account.providerUserId = providerUserId := by
  obtain ⟨v, member, rfl, -, same⟩ := World.providerAccount_eq_some found
  have committed := (settled.accounts v member).1
  cases v
  cases committed
  exact ⟨member, same⟩

theorem World.Settled.providerAccount_none (settled : w.Settled) {providerUserId : String}
    (missing : w.providerAccount i providerUserId = none) :
    ∀ v ∈ w.providerAccounts.rows, v.row.providerUserId ≠ providerUserId := by
  intro v member
  exact World.providerAccount_eq_none missing v member
    (by simp [Versioned.visible, (settled.accounts v member).1])

/-! ### Commands and transactions -/

theorem alone_still (w : World) : (alone P allowed).drift w w := ⟨0, rfl⟩

theorem alone_await {c : Cmd} {Q : Except AppError c.Res → World → Prop}
    (post : ∀ ms ch res w', allowed ch → exec P i c ch (w.advance ms) = some (res, w') → Q res w') :
    Always (machine P) (alone P allowed) i Q (await c) w := by
  apply Always.perform
  rintro w₀ ⟨ms, rfl⟩ ch res w' may returned
  exact post ms ch res w' may returned

/-- A program on its own, whose commands may all fail. -/
abbrev ticking (P : Platform) : Setting (machine P) := alone P fun _ => True

theorem ticking_perform {c : Cmd} {Q : Except AppError c.Res → World × List (Call api) → Prop}
    {log : List (Call api)}
    (post : ∀ ms ch res w', exec P i c ch (w.advance ms) = some (res, w') →
      Q res (w', ⟨c, res⟩ :: log)) :
    Always (machine P).recorded (ticking P).recorded i Q (await c) (w, log) := by
  apply Always.recorded_perform
  rintro _ ⟨ms, rfl⟩ ch res w' _ returned
  exact post ms ch res w' returned

theorem alone_redisGet {key : String} {Q : Except AppError (Option String) → World → Prop}
    (failed : MayFail allowed → ∀ ms, Q (.error .redis) (w.advance ms))
    (read : ∀ ms, Q (.ok (w.redis.get (w.now + ms) key)) (w.advance ms)) :
    Always (machine P) (alone P allowed) i Q (await (.redisGet key)) w := by
  apply alone_await
  intro ms ch res w' may returned
  obtain ⟨rfl, ⟨fault, rfl⟩ | ⟨-, rfl⟩⟩ := exec_redisGet returned
  · exact failed ⟨ch, may, fault⟩ ms
  · exact read ms

theorem alone_redisDel {key : String} {Q : Except AppError Unit → World → Prop}
    (failed : MayFail allowed → ∀ ms, Q (.error .redis) (w.advance ms))
    (deleted : ∀ ms, Q (.ok ()) { w.advance ms with redis := w.redis.del key }) :
    Always (machine P) (alone P allowed) i Q (await (.redisDel key)) w := by
  apply alone_await
  intro ms ch res w' may returned
  rcases exec_redisDel returned with ⟨fault, rfl, rfl⟩ | ⟨-, rfl, rfl⟩
  · exact failed ⟨ch, may, fault⟩ ms
  · exact deleted ms

/-- The statements on the accounts tables but for the end of a transaction. -/
def Cmd.isStatement : Cmd → Bool
  | .findUserByEmail _ | .findUserById _ | .insertUser _ _ | .findProviderAccount _
  | .saveProviderAccount _ _ => true
  | _ => false

theorem exec_of_fault {c : Cmd} {ch : Choice} {res : Except AppError c.Res}
    (statement : c.isStatement = true) (fault : ch.fault ≠ none)
    (returned : exec P i c ch w = some (res, w')) : res = .error .queryFailed ∧ w' = w := by
  have faulty : ch.fault.isSome = true := Option.isSome_iff_ne_none.mpr fault
  cases c <;> simp only [Cmd.isStatement, Bool.false_eq_true] at statement <;>
    simp only [exec, faulty, ↓reduceIte] at returned <;> cases returned <;> exact ⟨rfl, rfl⟩

section Statements

variable {w₀ : World} {Q : Except AppError (Option User) → World → Prop}

theorem alone_findUserByEmail {email : String}
    (failed : MayFail allowed → ∀ ms, Q (.error .queryFailed) (w.advance ms))
    (read : MayWork allowed → ∀ ms, Q (.ok (w.userByEmail i email)) (w.advance ms)) :
    Always (machine P) (alone P allowed) i Q (await (.findUserByEmail email)) w := by
  apply alone_await
  intro ms ch res w' may returned
  by_cases fault : ch.fault = none
  · obtain ⟨rfl, ⟨broken, -⟩ | rfl⟩ := exec_findUserByEmail returned
    · exact absurd fault broken
    · exact read ⟨ch, may, fault⟩ ms
  · obtain ⟨rfl, rfl⟩ := exec_of_fault rfl fault returned
    exact failed ⟨ch, may, fault⟩ ms

theorem alone_findUserById {id : String}
    (failed : MayFail allowed → ∀ ms, Q (.error .queryFailed) (w.advance ms))
    (read : MayWork allowed → ∀ ms, Q (.ok (w.userById i id)) (w.advance ms)) :
    Always (machine P) (alone P allowed) i Q (await (.findUserById id)) w := by
  apply alone_await
  intro ms ch res w' may returned
  by_cases fault : ch.fault = none
  · obtain ⟨rfl, ⟨broken, -⟩ | rfl⟩ := exec_findUserById returned
    · exact absurd fault broken
    · exact read ⟨ch, may, fault⟩ ms
  · obtain ⟨rfl, rfl⟩ := exec_of_fault rfl fault returned
    exact failed ⟨ch, may, fault⟩ ms

theorem alone_findProviderAccount {providerUserId : String}
    {Q : Except AppError (Option ProviderAccount) → World → Prop}
    (failed : MayFail allowed → ∀ ms, Q (.error .queryFailed) (w.advance ms))
    (read : MayWork allowed →
      ∀ ms, Q (.ok (w.providerAccount i providerUserId)) (w.advance ms)) :
    Always (machine P) (alone P allowed) i Q (await (.findProviderAccount providerUserId)) w := by
  apply alone_await
  intro ms ch res w' may returned
  by_cases fault : ch.fault = none
  · obtain ⟨rfl, ⟨broken, -⟩ | rfl⟩ := exec_findProviderAccount returned
    · exact absurd fault broken
    · exact read ⟨ch, may, fault⟩ ms
  · obtain ⟨rfl, rfl⟩ := exec_of_fault rfl fault returned
    exact failed ⟨ch, may, fault⟩ ms

/-- An insertion that answers was not made to fail. -/
theorem mayWork_of_exec {c : Cmd} {ch : Choice} {res : Except AppError c.Res}
    (statement : c.isStatement = true) (may : allowed ch)
    (returned : exec P i c ch w = some (res, w')) (answered : res ≠ .error .queryFailed) :
    MayWork allowed := by
  refine ⟨ch, may, ?_⟩
  by_contra fault
  exact answered (exec_of_fault statement fault returned).1

/-- The first insertion of a transaction into the users. -/
theorem alone_insertUser {email : String} {passwordHash : Option String}
    {Q : Except AppError User → World → Prop} (settled : w₀.Settled)
    (adds : World.Adds (some i) [] [] w₀ w)
    (failed : MayFail allowed → ∀ w', World.Adds (some i) [] [] w₀ w' →
      Q (.error .queryFailed) w')
    (taken : MayWork allowed → (∃ v ∈ w₀.users.rows, v.row.email = email) →
      ∀ w', World.Adds (some i) [] [] w₀ w' → Q (.error .uniqueViolation) w')
    (inserted : MayWork allowed → (∀ v ∈ w₀.users.rows, v.row.email ≠ email) →
      ∀ (user : User) w', user.email = email → user.passwordHash = passwordHash →
      user.id ∉ w₀.drawn → user.id ∈ w'.drawn → World.Adds (some i) [user] [] w₀ w' →
      Q (.ok user) w') :
    Always (machine P) (alone P allowed) i Q (await (.insertUser email passwordHash)) w := by
  apply alone_await
  intro ms ch res w' may returned
  obtain ⟨accounts, outcome⟩ := exec_insertUser returned
  have frame := exec_frame returned
  have before := adds.advance ms
  have same : ∀ us, w'.users.rows = us ++ (w.advance ms).users.rows →
      ∀ added : List User, us = added.map (fun user => (⟨user, some i⟩ : Versioned User)) →
      World.Adds (some i) added [] w₀ w' := by
    intro us users added eq
    refine ⟨by rw [users, before.users, eq]; rfl, by rw [accounts, before.accounts],
      (frame.redis rfl).trans before.redis, (frame.apiKeys rfl).trans before.apiKeys,
      (frame.signed rfl).trans before.signed, fun _ old => frame.drawn (before.drawn old)⟩
  rcases outcome with ⟨fault, rfl, rfl⟩ | ⟨fresh, drawn, ⟨rfl, users, clash⟩ | ⟨user, row, rfl, users⟩⟩
  · exact failed ⟨ch, may, fault⟩ _ before
  · obtain ⟨v, member, -, hit⟩ := clash
    have old : v ∈ w₀.users.rows := by
      rw [before.users] at member
      exact member
    refine taken (mayWork_of_exec rfl may returned (by simp)) ⟨v, old, ?_⟩ _
      (same [] (by rw [users]; rfl) [] rfl)
    -- the drawn id is new, so the clash is one of emails
    rcases hit with sameId | sameEmail
    · exact absurd (adds.drawn (sameId ▸ (settled.users v old).2)) fresh
    · exact sameEmail
  · subst row
    refine inserted (mayWork_of_exec rfl may returned (by simp)) ?_ _ w' rfl rfl
      (fun old => fresh (adds.drawn old)) (by rw [drawn]; exact List.mem_cons_self)
      (same [_] users [_] rfl)
    intro v member email
    have new := users ▸ List.mem_cons_self
    have old : v ∈ w'.users.rows := by
      rw [users, before.users]
      exact List.mem_cons_of_mem _ member
    have one := Table.eq_of_key (k := fun v => v.row.email) (by simp) old new email
    have committed := (settled.users v member).1
    rw [one] at committed
    cases committed

/-- The first insertion of a transaction into the provider accounts. -/
theorem alone_saveProviderAccount {providerUserId userId : String}
    {Q : Except AppError ProviderAccount → World → Prop} (settled : w₀.Settled)
    (adds : World.Adds (some i) us [] w₀ w)
    (failed : MayFail allowed → ∀ w', World.Adds (some i) us [] w₀ w' →
      Q (.error .queryFailed) w')
    (taken : MayWork allowed → (∃ v ∈ w₀.providerAccounts.rows,
        v.row.providerUserId = providerUserId ∨ v.row.userId = userId) →
      ∀ w', World.Adds (some i) us [] w₀ w' → Q (.error .uniqueViolation) w')
    (saved : MayWork allowed → (∀ v ∈ w₀.providerAccounts.rows, v.row.userId ≠ userId) →
      ∀ (account : ProviderAccount) w', account.providerUserId = providerUserId →
      account.userId = userId → account.id ∈ w'.drawn → w.drawn ⊆ w'.drawn →
      World.Adds (some i) us [account] w₀ w' → Q (.ok account) w') :
    Always (machine P) (alone P allowed) i Q
      (await (.saveProviderAccount providerUserId userId)) w := by
  apply alone_await
  intro ms ch res w' may returned
  obtain ⟨users, outcome⟩ := exec_saveProviderAccount returned
  have frame := exec_frame returned
  have before := adds.advance ms
  have same : ∀ as, w'.providerAccounts.rows = as ++ (w.advance ms).providerAccounts.rows →
      ∀ added : List ProviderAccount,
      as = added.map (fun account => (⟨account, some i⟩ : Versioned ProviderAccount)) →
      World.Adds (some i) us added w₀ w' := by
    intro as accounts added eq
    refine ⟨by rw [users, before.users], by rw [accounts, before.accounts, eq]; rfl,
      (frame.redis rfl).trans before.redis, (frame.apiKeys rfl).trans before.apiKeys,
      (frame.signed rfl).trans before.signed, fun _ old => frame.drawn (before.drawn old)⟩
  rcases outcome with
    ⟨fault, rfl, rfl⟩ | ⟨fresh, drawn, ⟨rfl, accounts, clash⟩ | ⟨account, row, rfl, accounts⟩⟩
  · exact failed ⟨ch, may, fault⟩ _ before
  · obtain ⟨v, member, -, hit⟩ := clash
    have old : v ∈ w₀.providerAccounts.rows := by
      rw [before.accounts] at member
      exact member
    refine taken (mayWork_of_exec rfl may returned (by simp)) ⟨v, old, ?_⟩ _
      (same [] (by rw [accounts]; rfl) [] rfl)
    rcases hit with sameId | others
    · exact absurd (adds.drawn (sameId ▸ (settled.accounts v old).2)) fresh
    · exact others
  · subst row
    refine saved (mayWork_of_exec rfl may returned (by simp)) ?_ _ w' rfl rfl
      (by rw [drawn]; exact List.mem_cons_self) frame.drawn (same [_] accounts [_] rfl)
    intro v member owner
    have new := accounts ▸ List.mem_cons_self
    have old : v ∈ w'.providerAccounts.rows := by
      rw [accounts, before.accounts]
      exact List.mem_cons_of_mem _ member
    have one := Table.eq_of_key (k := fun v => v.row.userId) (by simp) old new owner
    have committed := (settled.accounts v member).1
    rw [one] at committed
    cases committed

end Statements

/-- What the body of a transaction that began in `w` has to leave behind for `Q` to hold after it. -/
def Inside {α : Type} (allowed : Choice → Prop) (i : Nat) (w : World)
    (Q : Except AppError α → World → Prop) (r : Except AppError α) (w' : World) : Prop :=
  ∃ us as, World.Adds (some i) us as w w' ∧ match r with
    | .ok a =>
      (∀ w₂, w'.drawn ⊆ w₂.drawn → World.Adds none us as w w₂ → Q (.ok a) w₂) ∧
        (MayFail allowed → ∀ w₂, World.Adds none [] [] w w₂ → Q (.error .queryFailed) w₂)
    | .error e => ∀ w₂, World.Adds none [] [] w w₂ → Q (.error e) w₂

/-- A transaction commits what its body inserted, or leaves the tables as they were. -/
theorem alone_transaction {α : Type} {body : Prog α} {Q : Except AppError α → World → Prop}
    (settled : w.Settled)
    (inside : Always (machine P) (alone P allowed) i (Inside allowed i w Q) body w) :
    Always (machine P) (alone P allowed) i Q (transaction body) w := by
  apply Always.tryCatch
  apply Always.bind
  refine inside.mono fun r w' post => ?_
  -- a failed body and a failed commit are both rolled back before the error goes on
  have undo : ∀ us as {w₁} (e : AppError), World.Adds (some i) us as w w₁ →
      (∀ w₂, World.Adds none [] [] w w₂ → Q (.error e) w₂) →
      Always (machine P) (alone P allowed) i Q
        (do await .rollback; throw e : Prog α) w₁ := by
    intro us as w₁ e adds failed
    apply Always.bind
    apply alone_await
    intro ms ch res w₂ _ returned
    obtain ⟨rfl, rfl⟩ := exec_rollback returned
    exact failed _ ((adds.advance ms).rollback settled)
  obtain ⟨us, as, adds, post⟩ := post
  cases r with
  | error e => exact undo us as e adds post
  | ok a =>
    obtain ⟨done, failed⟩ := post
    apply Always.bind
    apply alone_await
    intro ms ch res w₂ may returned
    rcases exec_commit returned with ⟨fault, rfl, rfl⟩ | ⟨-, rfl, rfl⟩
    · have rolled := (adds.advance ms).rollback settled
      -- nothing is left to undo, the second rollback finds no row
      refine undo [] [] _ ?_ (failed ⟨ch, may, fault⟩)
      exact ⟨rolled.users, rolled.accounts, rolled.redis, rolled.apiKeys, rolled.signed,
        rolled.drawn⟩
    · exact done _ (List.Subset.refl _) ((adds.advance ms).commit settled)

/-! ### Registration -/

/-- What a registration on its own can do. -/
inductive Registers (P : Platform) (allowed : Choice → Prop) (email password : String)
    (w : World) : Except AppError PublicUser → World → Prop
  | created {user : User} {w' : World} (work : MayWork allowed)
      (unused : ∀ v ∈ w.users.rows, v.row.email ≠ email) (own : user.email = email)
      (hash : ∃ salt, user.passwordHash = some (P.bcryptHash password salt))
      (fresh : user.id ∉ w.drawn) (drawn : user.id ∈ w'.drawn)
      (adds : World.Adds none [user] [] w w') :
      Registers P allowed email password w (.ok ⟨user.id, email, user.createdAt⟩) w'
  | decoy {id : String} {now : Nat} {w' : World} (work : MayWork allowed)
      (taken : ∃ v ∈ w.users.rows, v.row.email = email)
      (fresh : id ∉ w.drawn) (drawn : id ∈ w'.drawn) (adds : World.Adds none [] [] w w') :
      Registers P allowed email password w (.ok ⟨id, email, now⟩) w'
  | failed {w' : World} (fail : MayFail allowed) (adds : World.Adds none [] [] w w') :
      Registers P allowed email password w (.error .queryFailed) w'

theorem alone_buildDecoyUser {email : String} {Q : Except AppError User → World → Prop}
    (post : ∀ id now w', id ∉ w.drawn → id ∈ w'.drawn → World.Adds none [] [] w w' →
      Q (.ok ⟨id, email, some "", none, none, now⟩) w') :
    Always (machine P) (alone P allowed) i Q (buildDecoyUser email) w := by
  apply Always.bind
  apply alone_await
  intro ms ch res w₁ _ returned
  obtain ⟨rfl, -, fresh, rfl⟩ := exec_randomUUID returned
  apply Always.bind
  apply alone_await
  intro ms' ch' res w₂ _ returned
  obtain ⟨rfl, rfl⟩ := exec_dateNow returned
  exact post ch.draw _ _ fresh List.mem_cons_self
    ⟨rfl, rfl, rfl, rfl, rfl, List.subset_cons_self _ _⟩

theorem alone_register {email password : String} (settled : w.Settled) :
    Always (machine P) (alone P allowed) i (Registers P allowed email password w)
      (AuthService.register email password) w := by
  apply Always.bind
  apply alone_await
  intro ms ch res w₁ _ returned
  obtain ⟨rfl, salt, rfl⟩ := exec_bcryptHash returned
  apply Always.bind
  apply Always.tryCatch
  apply alone_transaction (settled.advance ms)
  refine alone_insertUser (settled.advance ms) (.refl _) ?_ ?_ ?_
  · exact fun fail w₂ adds => ⟨[], [], adds, fun w₃ rolled => .failed fail rolled.of_advance⟩
  · -- the clash becomes a decoy with an id of its own
    intro work taken w₂ adds
    refine ⟨[], [], adds, fun w₃ rolled => ?_⟩
    simp only [isUniqueViolation, ↓reduceIte]
    apply alone_buildDecoyUser
    intro id now w₄ new known adds'
    have all := rolled.trans adds'
    exact .decoy work taken (fun old => new (rolled.drawn old)) known all.of_advance
  · intro work unused user w₂ own hash fresh drawn adds
    subst own
    refine ⟨[user], [], adds, fun w₃ later kept => ?_,
      fun fail w₃ rolled => .failed fail rolled.of_advance⟩
    exact .created work unused rfl ⟨salt, hash⟩ fresh (later drawn) kept.of_advance

/-! ### Credentials and token pairs -/

/-- What the account with an email stores as its password, if there is such an account. -/
def World.passwordOf (w : World) (email : String) : Option (Option String) :=
  (w.users.byKey (fun v => v.row.email) email).map fun v => v.row.passwordHash

theorem World.passwordOf_eq_some {email : String} {hash : Option String} :
    w.passwordOf email = some hash ↔
      ∃ v ∈ w.users.rows, v.row.email = email ∧ v.row.passwordHash = hash := by
  rw [World.passwordOf, Option.map_eq_some_iff]
  constructor
  · rintro ⟨v, found, same⟩
    obtain ⟨member, email⟩ := (Table.byKey_eq_some (by simp)).mp found
    exact ⟨v, member, email, same⟩
  · rintro ⟨v, member, email, same⟩
    exact ⟨v, (Table.byKey_eq_some (by simp)).mpr ⟨member, email⟩, same⟩

theorem World.passwordOf_eq_none {email : String} :
    w.passwordOf email = none ↔ ∀ v ∈ w.users.rows, v.row.email ≠ email := by
  rw [World.passwordOf, Option.map_eq_none_iff, Table.byKey_eq_none]

/-- The password opens an account that stores `hash`. -/
def opens (P : Platform) (password : String) (hash : Option String) : Bool :=
  decide (hash ≠ none) && decide (hash ≠ some "") &&
    P.bcryptCompare password (hash.getD DECOY_PASSWORD_HASH)

/-- What bcrypt is relied on for: the first 72 bytes of a password count and no others, no two of
them collide, and a hash is not empty. -/
structure Bcrypt (P : Platform) : Prop where
  compare : ∀ password stored salt,
    P.bcryptCompare password (P.bcryptHash stored salt) = true ↔
      bcryptInput password = bcryptInput stored
  nonempty : ∀ password salt, P.bcryptHash password salt ≠ ""

theorem Platform.plain_bcrypt : Bcrypt Platform.plain where
  compare password stored salt := by
    constructor
    · intro matched
      exact (Platform.plain_bcryptCompare password stored salt matched).symm
    · intro same
      have digits : ∀ c ∈ bcryptDigest stored, decide (c ≠ '$') = true := by
        intro c member
        obtain ⟨b, -, rfl⟩ := List.mem_map.mp member
        refine decide_eq_true fun dollar => ?_
        have code := toNat_digestChar b
        rw [dollar] at code
        have small : '$'.toNat = 36 := rfl
        omega
      simp only [Platform.plain, String.toList_ofList, decide_eq_true_eq]
      rw [List.takeWhile_append_of_pos digits, List.takeWhile_cons_of_neg (by simp),
        List.append_nil, bcryptDigest, bcryptDigest, same]
  nonempty password salt := by
    intro empty
    have chars : (String.ofList (bcryptDigest password ++ '$' :: salt.toList)).toList = [] :=
      congrArg String.toList empty
    rw [String.toList_ofList] at chars
    exact absurd chars (by simp)

/-- A password set with bcrypt opens to those, and only those, that bcrypt reads the same. -/
theorem opens_hash (bcrypt : Bcrypt P) {password stored salt : String} :
    opens P password (some (P.bcryptHash stored salt)) = true ↔
      bcryptInput password = bcryptInput stored := by
  simp [opens, bcrypt.nonempty, bcrypt.compare]

/-- What a check of credentials on its own can find. -/
inductive Validates (P : Platform) (allowed : Choice → Prop) (email password : String)
    (w : World) : Except AppError (Option User) → World → Prop
  | opened {user : User} {w' : World} (work : MayWork allowed)
      (row : ⟨user, none⟩ ∈ w.users.rows) (own : user.email = email)
      (match_ : opens P password user.passwordHash = true) (adds : World.Adds none [] [] w w') :
      Validates P allowed email password w (.ok (some user)) w'
  | refused {w' : World} (work : MayWork allowed)
      (closed : ∀ hash, w.passwordOf email = some hash → opens P password hash = false)
      (adds : World.Adds none [] [] w w') :
      Validates P allowed email password w (.ok none) w'
  | failed {w' : World} (fail : MayFail allowed) (adds : World.Adds none [] [] w w') :
      Validates P allowed email password w (.error .queryFailed) w'

theorem alone_validateCredentials {email password : String} (settled : w.Settled) :
    Always (machine P) (alone P allowed) i (Validates P allowed email password w)
      (AuthService.validateCredentials P email password) w := by
  apply Always.bind
  have quiet : ∀ ms, World.Adds none [] [] w (w.advance ms) :=
    fun ms => World.Adds.advance (.refl w) ms
  refine alone_findUserByEmail (fun fail ms => .failed fail (quiet ms)) fun work ms => ?_
  cases found : w.userByEmail i email with
  | none =>
    -- bcrypt compares with the decoy hash, and nothing opens
    have unused := settled.userByEmail_none.mp found
    refine Validates.refused work ?_ (quiet ms)
    intro hash stored
    obtain ⟨v, member, same, -⟩ := World.passwordOf_eq_some.mp stored
    exact absurd same (unused v member)
  | some user =>
    obtain ⟨row, own⟩ := settled.userByEmail.mp found
    simp only [Option.bind_some]
    split
    next closed =>
      refine Validates.refused work ?_ (quiet ms)
      intro hash stored
      have here := World.passwordOf_eq_some.mpr ⟨_, row, own, rfl⟩
      have same := Option.some.inj (here.symm.trans stored)
      subst same
      -- no hash, an empty one, or one that does not match
      rcases closed with missing | empty | wrong
      · simp [opens, missing]
      · simp [opens, empty]
      · simp [opens, wrong]
    next opened =>
      rw [not_or, not_or, Bool.not_eq_false] at opened
      exact .opened work row own (by simp [opens, opened]) (quiet ms)

/-- The worlds agree on the accounts tables, and nothing drawn was forgotten. -/
structure World.SameAccounts (w w' : World) : Prop where
  users : w'.users = w.users
  accounts : w'.providerAccounts = w.providerAccounts
  apiKeys : w'.apiKeys = w.apiKeys
  drawn : w.drawn ⊆ w'.drawn

theorem World.Adds.sameAccounts {w₁ w₂ w₃ : World} (adds : World.Adds none [] [] w₁ w₂)
    (same : w₂.SameAccounts w₃) : w₁.SameAccounts w₃ where
  users := same.users.trans (Table.eq_of_rows adds.users)
  accounts := same.accounts.trans (Table.eq_of_rows adds.accounts)
  apiKeys := same.apiKeys.trans adds.apiKeys
  drawn := fun _ old => same.drawn (adds.drawn old)

/-- What an issue of tokens on its own can do: a new family with its first `jti`. -/
inductive Issues (P : Platform) (allowed : Choice → Prop) (user : User) (w : World) :
    Except AppError IssuedTokens → World → Prop
  | issued {access refresh : Jwt} {jti family : String} {now : Nat} {w' : World}
      (work : MayWork allowed) (same : w.SameAccounts w')
      (accessed : access.payload = buildAccessPayload user ∧ access.secret = P.jwtSecret)
      (refreshed : refresh.payload = buildRefreshPayload user jti family ∧
        refresh.secret = P.jwtRefreshSecret)
      (fresh : family ∉ w.drawn) (signed : w'.signed = refresh :: access :: w.signed)
      (redis : w'.redis = w.redis.set now (buildRevocationKey family) jti
        (some REFRESH_TOKEN_TTL_SECONDS)) :
      Issues P allowed user w (.ok ⟨⟨access, refresh⟩,
        ⟨ACCESS_COOKIE_NAME, access, ACCESS_COOKIE_PATH, ACCESS_TOKEN_TTL_SECONDS⟩,
        ⟨REFRESH_COOKIE_NAME, refresh, REFRESH_COOKIE_PATH, REFRESH_TOKEN_TTL_SECONDS⟩⟩) w'
  | failed {access refresh : Jwt} {w' : World} (fail : MayFail allowed) (same : w.SameAccounts w')
      (accessed : access.payload = buildAccessPayload user)
      (refreshed : ∃ jti family, refresh.payload = buildRefreshPayload user jti family)
      (signed : w'.signed = refresh :: access :: w.signed) (redis : w'.redis = w.redis) :
      Issues P allowed user w (.error .redis) w'

theorem alone_issueTokens {user : User} :
    Always (machine P) (alone P allowed) i (Issues P allowed user w)
      (AuthService.issueTokens P user) w := by
  apply Always.bind
  apply alone_await
  intro ms₁ ch₁ res₁ w₁ _ returned₁
  obtain ⟨rfl, -, fresh₁, rfl⟩ := exec_randomUUID returned₁
  apply Always.bind
  apply alone_await
  intro ms₂ ch₂ res₂ w₂ _ returned₂
  obtain ⟨rfl, -, fresh₂, rfl⟩ := exec_randomUUID returned₂
  apply Always.bind
  apply alone_await
  intro ms₃ ch₃ res₃ w₃ _ returned₃
  simp only [exec] at returned₃
  cases returned₃
  apply Always.bind
  apply alone_await
  intro ms₄ ch₄ res₄ w₄ _ returned₄
  simp only [exec] at returned₄
  cases returned₄
  apply Always.bind
  -- the allowlist entry comes last: whatever fails before it leaves Redis as it was
  have positive : 0 < REFRESH_TOKEN_TTL_SECONDS := by decide
  simp only [setOrThrow, setWithOptionalTtl, positive, ↓reduceIte]
  apply alone_await
  intro ms₅ ch₅ res₅ w₅ may returned₅
  have family : ch₂.draw ∉ w.drawn := fun old => fresh₂ (List.mem_cons_of_mem _ old)
  have drawn : w.drawn ⊆ ch₂.draw :: ch₁.draw :: w.drawn := fun _ old =>
    List.mem_cons_of_mem _ (List.mem_cons_of_mem _ old)
  -- the pair was signed either way, but only the entry makes the refresh token count
  rcases exec_redisSet returned₅ with ⟨fault, rfl, rfl⟩ | ⟨works, rfl, rfl⟩
  · exact .failed ⟨ch₅, may, fault⟩ ⟨rfl, rfl, rfl, drawn⟩ rfl ⟨_, _, rfl⟩ rfl rfl
  · exact .issued ⟨ch₅, may, works⟩ ⟨rfl, rfl, rfl, drawn⟩ ⟨rfl, rfl⟩ ⟨rfl, rfl⟩ family rfl rfl

end Mikrouli
