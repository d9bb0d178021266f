import Mikrouli.Model.Commands
import Mikrouli.Model.Footprint

/-! Registrations and sign-ins in any interleaving: how far each transaction has got. -/

namespace Mikrouli

open Async Store

variable {P : Platform}

/-! ### Progress -/

/-- How far the transaction of a registration or a sign-in has got. -/
inductive Stage where
  | began
  /-- no provider account was found -/
  | unlinked
  | linked (account : ProviderAccount)
  /-- no user was found either -/
  | unused
  | created (user : User)
  /-- the user to link -/
  | chosen (user : User)
  | saved (user : User)
  | known (user : User)
  | failed (violation : Bool)
  | registered (user : User)
  | signedIn (user : User)
  | gaveUp
  deriving DecidableEq, Repr

structure Progress where
  /-- a first transaction lost a race -/
  again : Bool
  stage : Stage
  deriving DecidableEq, Repr

/-- The stage after a command other than a rollback. -/
def Stage.after (s : Stage) : (c : Cmd) → Except AppError c.Res → Stage
  | .findProviderAccount _, .ok none => .unlinked
  | .findProviderAccount _, .ok (some account) => .linked account
  | .findUserById _, .ok found => match s, found with
    | .linked _, some user => .known user
    | .linked _, none => .failed false
    | s, _ => s
  | .findUserByEmail _, .ok found => match s, found with
    | .unlinked, some user => .chosen user
    | .unlinked, none => .unused
    | .created _, some user => .chosen user
    | .created _, none => .failed false
    | s, _ => s
  | .insertUser _ _, .ok user => .created user
  | .saveProviderAccount _ _, .ok _ => match s with
    | .chosen user => .saved user
    | s => s
  | .commit, .ok _ => match s with
    | .created user => .registered user
    | .saved user | .known user => .signedIn user
    | s => s
  -- any statement that fails takes the transaction with it
  | .findProviderAccount _, .error e | .findUserById _, .error e | .findUserByEmail _, .error e
  | .insertUser _ _, .error e | .saveProviderAccount _ _, .error e | .commit, .error e =>
    .failed (isUniqueViolation e)
  | _, _ => s

/-- A rollback starts the second transaction if the first ran into a unique violation. -/
def Progress.undone (s : Progress) : Progress :=
  match s.stage with
  | .failed violation => if violation && !s.again then ⟨true, .began⟩ else ⟨s.again, .gaveUp⟩
  | _ => ⟨s.again, .gaveUp⟩

def Progress.next (s : Progress) : Event (mikrouli P) → Progress
  | .start _ => s
  | .call .rollback _ => s.undone
  | .call c res => ⟨s.again, s.stage.after c res⟩

/-- Where a thread is, from its events, newest first. -/
def progress : List (Event (mikrouli P)) → Progress
  | [] => ⟨false, .began⟩
  | e :: es => (progress es).next e

/-- What a thread was asked. -/
def asked (es : List (Event (mikrouli P))) : Option Req :=
  es.findSome? fun
    | .start r => some r
    | _ => none

@[simp] theorem asked_call {c : Cmd} {res : Except AppError c.Res}
    {es : List (Event (mikrouli P))} : asked (.call c res :: es) = asked es := rfl

/-- The identity a request signs in with. -/
def Req.identity? : Req → Option GithubIdentity
  | .findOrCreateFromProvider identity | .loginWithGithub identity => some identity
  | _ => none

/-- The commands a request may issue where it has got to. -/
inductive Allowed (P : Platform) : Req → Progress → Cmd → Prop
  | hash {email password : String} :
      Allowed P (.register email password) ⟨false, .began⟩ (.bcryptHash password)
  | register {email password : String} (salt : String) :
      Allowed P (.register email password) ⟨false, .began⟩
        (.insertUser email (some (P.bcryptHash password salt)))
  | keep {email password : String} {user : User} :
      Allowed P (.register email password) ⟨false, .created user⟩ .commit
  | discard {email password : String} {violation : Bool} :
      Allowed P (.register email password) ⟨false, .failed violation⟩ .rollback
  | decoyId {email password : String} :
      Allowed P (.register email password) ⟨true, .began⟩ .randomUUID
  | decoyDate {email password : String} :
      Allowed P (.register email password) ⟨true, .began⟩ .dateNow
  | lookUp {r : Req} {identity : GithubIdentity} {again : Bool}
      (signsIn : r.identity? = some identity) :
      Allowed P r ⟨again, .began⟩ (.findProviderAccount identity.providerUserId)
  | owner {r : Req} {identity : GithubIdentity} {again : Bool} {account : ProviderAccount}
      (signsIn : r.identity? = some identity) :
      Allowed P r ⟨again, .linked account⟩ (.findUserById account.userId)
  | byEmail {r : Req} {identity : GithubIdentity} {again : Bool}
      (signsIn : r.identity? = some identity) :
      Allowed P r ⟨again, .unlinked⟩ (.findUserByEmail identity.email)
  | create {r : Req} {identity : GithubIdentity} {again : Bool}
      (signsIn : r.identity? = some identity) :
      Allowed P r ⟨again, .unused⟩ (.insertUser identity.email none)
  | reread {r : Req} {identity : GithubIdentity} {again : Bool} {user : User}
      (signsIn : r.identity? = some identity) :
      Allowed P r ⟨again, .created user⟩ (.findUserByEmail identity.email)
  | link {r : Req} {identity : GithubIdentity} {again : Bool} {user : User}
      (signsIn : r.identity? = some identity) :
      Allowed P r ⟨again, .chosen user⟩
        (.saveProviderAccount identity.providerUserId user.id)
  | commitSaved {r : Req} {identity : GithubIdentity} {again : Bool} {user : User}
      (signsIn : r.identity? = some identity) : Allowed P r ⟨again, .saved user⟩ .commit
  | commitKnown {r : Req} {identity : GithubIdentity} {again : Bool} {user : User}
      (signsIn : r.identity? = some identity) : Allowed P r ⟨again, .known user⟩ .commit
  | undo {r : Req} {identity : GithubIdentity} {again violation : Bool}
      (signsIn : r.identity? = some identity) :
      Allowed P r ⟨again, .failed violation⟩ .rollback
  | issue {identity : GithubIdentity} {again : Bool} {user : User} {c : Cmd}
      (reads : c.writesAccounts = false) :
      Allowed P (.loginWithGithub identity) ⟨again, .signedIn user⟩ c
  | elsewhere {r : Req} {s : Progress} {c : Cmd} (other : r.onAccounts = false)
      (reads : c.writesAccounts = false) : Allowed P r s c

/-! ### Roots -/

/-- A row with the user is there for transaction `i`. -/
def World.Sees (w : World) (i : Nat) (user : User) : Prop :=
  ∃ v ∈ w.users.rows, v.row = user ∧ v.visible i = true

/-- The users table backs what a thread has got to. -/
def Grounded (w : World) (i : Nat) : Stage → Prop
  | .created user => ⟨user, some i⟩ ∈ w.users.rows
  | .chosen user | .saved user | .known user => w.Sees i user
  | .registered user | .signedIn user => ⟨user, none⟩ ∈ w.users.rows
  | _ => True

/-- Every thread has its user in the table, and what it has committed stays there. -/
def Rooted (σ : Shared (mikrouli P)) : Prop :=
  ∀ i, Grounded σ.world i (progress (σ.own i)).stage

section Roots

variable {σ : Shared (mikrouli P)} {i : Nat} {c : Cmd} {ch : Choice} {w w' : World}
  {res : Except AppError c.Res}

theorem sees_iff {user : User} :
    w.Sees i user ↔ ⟨user, none⟩ ∈ w.users.rows ∨ ⟨user, some i⟩ ∈ w.users.rows := by
  constructor
  · rintro ⟨⟨row, tx⟩, member, rfl, seen⟩
    rcases Versioned.visible_eq_true.mp seen with none | own
    · exact .inl (none ▸ member)
    · exact .inr (own ▸ member)
  · rintro (member | member)
    · exact ⟨_, member, rfl, Versioned.visible_eq_true.mpr (.inl rfl)⟩
    · exact ⟨_, member, rfl, Versioned.visible_eq_true.mpr (.inr rfl)⟩

/-- No command touches the rows of other transactions, nor committed ones. -/
theorem users_kept (returned : exec P i c ch w = some (res, w')) {v : Versioned User}
    (member : v ∈ w.users.rows) (other : v.tx ≠ some i) : v ∈ w'.users.rows := by
  cases c with
  | commit =>
    rcases exec_commit returned with ⟨-, -, rfl⟩ | ⟨-, -, rfl⟩
    · exact mem_users_rollback.mpr ⟨member, other⟩
    · exact mem_users_commit.mpr ⟨v, member, commitRows_of_ne other⟩
  | rollback =>
    obtain ⟨rfl, -⟩ := exec_rollback returned
    exact mem_users_rollback.mpr ⟨member, other⟩
  | insertUser email passwordHash =>
    obtain ⟨-, ⟨-, -, rfl⟩ | ⟨-, -, ⟨-, same, -⟩ | ⟨user, -, -, rows⟩⟩⟩ := exec_insertUser returned
    · exact member
    · rw [same]
      exact member
    · rw [rows]
      exact List.mem_cons_of_mem _ member
  | saveProviderAccount providerUserId userId =>
    rw [(exec_saveProviderAccount returned).1]
    exact member
  | _ =>
    rw [(exec_frame returned).users rfl]
    exact member

theorem accounts_kept (returned : exec P i c ch w = some (res, w'))
    {v : Versioned ProviderAccount} (member : v ∈ w.providerAccounts.rows)
    (other : v.tx ≠ some i) : v ∈ w'.providerAccounts.rows := by
  cases c with
  | commit =>
    rcases exec_commit returned with ⟨-, -, rfl⟩ | ⟨-, -, rfl⟩
    · exact mem_providerAccounts_rollback.mpr ⟨member, other⟩
    · exact mem_providerAccounts_commit.mpr ⟨v, member, commitRows_of_ne other⟩
  | rollback =>
    obtain ⟨rfl, -⟩ := exec_rollback returned
    exact mem_providerAccounts_rollback.mpr ⟨member, other⟩
  | insertUser email passwordHash =>
    rw [(exec_insertUser returned).1]
    exact member
  | saveProviderAccount providerUserId userId =>
    obtain ⟨-, ⟨-, -, rfl⟩ | ⟨-, -, ⟨-, same, -⟩ | ⟨account, -, -, rows⟩⟩⟩ :=
      exec_saveProviderAccount returned
    · exact member
    · rw [same]
      exact member
    · rw [rows]
      exact List.mem_cons_of_mem _ member
  | _ =>
    rw [(exec_frame returned).providerAccounts rfl]
    exact member

theorem Grounded.other {j : Nat} (returned : exec P i c ch w = some (res, w')) (other : j ≠ i)
    {stage : Stage} (grounded : Grounded w j stage) : Grounded w' j stage := by
  have committed : ∀ user : User, ⟨user, none⟩ ∈ w.users.rows → ⟨user, none⟩ ∈ w'.users.rows :=
    fun user member => users_kept returned member (by simp)
  have own : ∀ user : User, ⟨user, some j⟩ ∈ w.users.rows → ⟨user, some j⟩ ∈ w'.users.rows :=
    fun user member => users_kept returned member (by simpa using other)
  cases stage with
  | created user => exact own user grounded
  | chosen user | saved user | known user =>
    exact sees_iff.mpr ((sees_iff.mp grounded).imp (committed user) (own user))
  | registered user | signedIn user => exact committed user grounded
  | _ => trivial

theorem Grounded.of_users (same : w'.users = w.users) {stage : Stage}
    (grounded : Grounded w i stage) : Grounded w' i stage := by
  cases stage <;> simp only [Grounded, World.Sees, same] at grounded ⊢ <;> exact grounded

/-- A thread's own command leaves it with a user that is there. -/
theorem Grounded.next {s : Progress} (returned : exec P i c ch w = some (res, w'))
    (grounded : Grounded w i s.stage) :
    Grounded w' i (s.next (P := P) (.call c res)).stage := by
  obtain ⟨again, stage⟩ := s
  cases c with
  | rollback =>
    simp only [Progress.next, Progress.undone]
    split
    · split <;> trivial
    · trivial
  | commit =>
    rcases exec_commit returned with ⟨-, rfl, -⟩ | ⟨-, rfl, rfl⟩
    · trivial
    -- a commit turns what the transaction sees into committed rows
    · have committed : ∀ user, w.Sees i user → ⟨user, none⟩ ∈ (w.commit i).users.rows := by
        intro user sees
        rcases sees_iff.mp sees with member | member
        · exact mem_users_commit.mpr ⟨_, member, commitRows_of_ne (by simp)⟩
        · exact mem_users_commit.mpr ⟨_, member, commitRows_own user⟩
      cases stage with
      | created user => exact committed user (sees_iff.mpr (.inr grounded))
      | saved user | known user => exact committed user grounded
      | chosen user => exact sees_iff.mpr (.inl (committed user grounded))
      | registered user | signedIn user =>
        exact committed user (sees_iff.mpr (.inl grounded))
      | _ => trivial
  | insertUser email passwordHash =>
    obtain ⟨-, ⟨-, rfl, -⟩ | ⟨-, -, ⟨rfl, -, -⟩ | ⟨user, -, rfl, rows⟩⟩⟩ := exec_insertUser returned
    · trivial
    · trivial
    · have inserted : (⟨user, some i⟩ : Versioned User) ∈ w'.users.rows := by
        rw [rows]
        exact List.mem_cons_self
      exact inserted
  | saveProviderAccount providerUserId userId =>
    have there := grounded.of_users (exec_saveProviderAccount returned).1
    cases res with
    | error e => trivial
    | ok account => cases stage <;> exact there
  | findUserByEmail email =>
    obtain ⟨rfl, ⟨-, rfl⟩ | rfl⟩ := exec_findUserByEmail returned
    · trivial
    · cases found : w'.userByEmail i email with
      -- the lookup moves two stages on; at any other nothing changes
      | none => cases stage <;> first | exact grounded | trivial
      | some user =>
        obtain ⟨v, member, row, seen, -⟩ := World.userByEmail_eq_some found
        have sees : w'.Sees i user := ⟨v, member, row, seen⟩
        cases stage <;> first | exact sees | exact grounded
  | findUserById id =>
    obtain ⟨rfl, ⟨-, rfl⟩ | rfl⟩ := exec_findUserById returned
    · trivial
    · cases found : w'.userById i id with
      | none => cases stage <;> exact grounded
      | some user =>
        obtain ⟨v, member, row, seen, -⟩ := World.userById_eq_some found
        have sees : w'.Sees i user := ⟨v, member, row, seen⟩
        cases stage <;> first | exact sees | exact grounded
  | findProviderAccount providerUserId =>
    cases res with
    | error e => trivial
    | ok found => cases found <;> trivial
  | _ =>
    have there := grounded.of_users ((exec_frame returned).users rfl)
    cases res <;> exact there

theorem Rooted.called (rooted : Rooted σ) (returned : exec P i c ch σ.world = some (res, w)) :
    Rooted (σ.called i c res w) := by
  intro j
  by_cases same : j = i
  · subst same
    rw [Shared.called_own_self]
    exact (rooted j).next returned
  · rw [Shared.called_own_of_ne same]
    exact (rooted j).other returned same

theorem progress_started (n j : Nat) (r : Req) :
    progress ((σ.started n r).own j) = progress (σ.own j) := by
  rw [Shared.started_own]
  split <;> rfl

theorem Rooted.started (rooted : Rooted σ) {n : Nat} (r : Req) : Rooted (σ.started n r) := by
  intro j
  rw [progress_started]
  exact rooted j

end Roots

/-! ### The contract -/

/-- Thread `i` was asked `r` and has got to `s`. -/
def At (σ : Shared (mikrouli P)) (i : Nat) (r : Req) (s : Progress) : Prop :=
  asked (σ.own i) = some r ∧ progress (σ.own i) = s

/-- How a request ends: a registration keeps its user or answers with a decoy, a sign-in answers
with the user of its committed transaction. -/
def Concludes (P : Platform) (r : Req) (res : Except AppError Ans) (es : List (Event (mikrouli P))) :
    Prop :=
  match r, res with
  | .register _ _, .ok a =>
    (∃ user, progress es = ⟨false, .registered user⟩ ∧
      a = .registered ⟨user.id, user.email, user.createdAt⟩) ∨ progress es = ⟨true, .began⟩
  | .findOrCreateFromProvider _, .ok a =>
    ∃ user, (progress es).stage = .signedIn user ∧ a = .account user
  | .register _ _, .error _ | .findOrCreateFromProvider _, .error _ =>
    (progress es).stage = .gaveUp
  | .validateCredentials email password, .ok (.validated (some user)) =>
    .call (.findUserByEmail email) (.ok (some user)) ∈ es ∧
      ∃ passwordHash, user.passwordHash = some passwordHash ∧
        P.bcryptCompare password passwordHash = true
  | _, _ => True

def accounts (P : Platform) : Contract (mikrouli P) :=
  .ofOwn Rooted
    (fun i c σ => ∃ r, asked (σ.own i) = some r ∧ Allowed P r (progress (σ.own i)) c)
    (fun i r res σ => asked (σ.own i) = some r ∧ Concludes P r res (σ.own i))

section Programs

variable {G : Guard (mikrouli P)} {σ : Shared (mikrouli P)} {i : Nat} {r : Req} {s : Progress}

theorem accounts_await {c : Cmd} {Q : Except AppError c.Res → Shared (mikrouli P) → Prop}
    (here : At σ i r s) (allowed : Allowed P r s c)
    (next : ∀ σ' res ch w w', exec P i c ch w = some (res, w') →
      σ'.own i = .call c res :: σ.own i → At σ' i r (s.next (P := P) (.call c res)) → Q res σ') :
    Safe (accounts P) G i Q (await c) σ := by
  obtain ⟨was, there⟩ := here
  apply Safe.perform
  intro σ' rely rooted
  have same : σ'.own i = σ.own i := rely
  refine ⟨⟨r, ?_, ?_⟩, fun ch res w returned _ => ⟨rooted.called returned, ?_, ?_⟩⟩
  · rw [same, was]
  · rw [same, there]
    exact allowed
  · exact fun j other => Shared.called_own_of_ne other σ' c res w
  · have events : (σ'.called i c res w).own i = .call c res :: σ.own i := by
      rw [Shared.called_own_self, same]
    refine next _ res ch _ w returned events ⟨?_, ?_⟩
    · rw [events, asked_call, was]
    · rw [events, progress, there]

/-- Requests on nothing but other tables go their way. -/
theorem accounts_elsewhere {α : Type} {p : Prog α}
    {Q : Except AppError α → Shared (mikrouli P) → Prop}
    (only : p.Only fun c : Cmd => c.writesAccounts = false) (other : r.onAccounts = false)
    (was : asked (σ.own i) = some r) (post : ∀ res σ', asked (σ'.own i) = some r → Q res σ') :
    Safe (accounts P) G i Q p σ := by
  refine Safe.of_only (K := fun σ => asked (σ.own i) = some r) only ?_ ?_ post was
  · intro σ σ' rely was
    have same : σ'.own i = σ.own i := rely
    rw [same]
    exact was
  · intro c σ reads rooted was
    refine ⟨⟨r, was, .elsewhere other reads⟩, fun ch res w returned _ =>
      ⟨rooted.called returned, ?_, ?_⟩⟩
    · exact fun j differs => Shared.called_own_of_ne differs σ c res w
    · rw [Shared.called_own_self]
      exact was

/-- The body of a transaction has got to where it may commit and then be at `fin`, or it failed. -/
def Ready {α : Type} (P : Platform) (i : Nat) (r : Req) (again : Bool) (fin : α → Stage) :
    Except AppError α → Shared (mikrouli P) → Prop
  | .ok a, σ => ∃ stage, At σ i r ⟨again, stage⟩ ∧ Allowed P r ⟨again, stage⟩ .commit ∧
      stage.after .commit (.ok ()) = fin a
  | .error e, σ => At σ i r ⟨again, .failed (isUniqueViolation e)⟩

/-- A transaction has committed or has been rolled back. -/
def Over {α : Type} (P : Platform) (i : Nat) (r : Req) (again : Bool) (fin : α → Stage) :
    Except AppError α → Shared (mikrouli P) → Prop
  | .ok a, σ => At σ i r ⟨again, fin a⟩
  | .error e, σ => At σ i r (Progress.undone ⟨again, .failed (isUniqueViolation e)⟩)

theorem transaction_safe {α : Type} {body : Prog α} {again : Bool} {fin : α → Stage}
    (undo : ∀ violation, Allowed P r ⟨again, .failed violation⟩ .rollback)
    (safe : Safe (accounts P) G i (Ready P i r again fin) body σ) :
    Safe (accounts P) G i (Over P i r again fin) (transaction body) σ := by
  -- an error of the body and one of the commit itself are rolled back alike
  have rolledBack : ∀ (e : AppError) (σ' : Shared (mikrouli P)),
      At σ' i r ⟨again, .failed (isUniqueViolation e)⟩ →
      Safe (accounts P) G i (Over P i r again fin) (do await .rollback; throw e : Prog α) σ' := by
    intro e σ' here
    apply Safe.bind
    apply accounts_await here (undo _)
    intro σ'' res ch w w' returned _ there
    obtain ⟨-, rfl⟩ := exec_rollback returned
    exact there
  apply Safe.tryCatch
  apply Safe.bind
  refine safe.mono fun res σ' post => ?_
  cases res with
  | error e => exact rolledBack e σ' post
  | ok a =>
    obtain ⟨stage, here, allowed, last⟩ := post
    apply Safe.bind
    apply accounts_await here allowed
    intro σ'' res ch w w' returned _ there
    rcases exec_commit returned with ⟨-, rfl, -⟩ | ⟨-, rfl, -⟩
    · exact rolledBack _ _ there
    · have concluded : At σ'' i r ⟨again, fin a⟩ := by
        rw [← last]
        exact there
      exact concluded

theorem resolveProviderIdentity_safe {identity : GithubIdentity} {again : Bool}
    (signsIn : r.identity? = some identity) (here : At σ i r ⟨again, .began⟩) :
    Safe (accounts P) G i (Ready P i r again .signedIn) (resolveProviderIdentity identity) σ := by
  -- the two branches that link an account end alike
  have links : ∀ (user : User) (σ' : Shared (mikrouli P)), At σ' i r ⟨again, .chosen user⟩ →
      Safe (accounts P) G i (Ready P i r again .signedIn)
        (do
          let _ ← await (.saveProviderAccount identity.providerUserId user.id)
          pure user : Prog User) σ' := by
    intro user σ' there
    apply Safe.bind
    apply accounts_await there (.link signsIn)
    intro σ'' res ch w w' _ _ saved
    cases res with
    | error e => exact saved
    | ok account => exact ⟨.saved user, saved, .commitSaved signsIn, rfl⟩
  apply Safe.bind
  apply accounts_await here (.lookUp signsIn)
  intro σ₁ res₁ ch₁ w₁ w₁' _ _ looked
  cases res₁ with
  | error e => exact looked
  | ok existing =>
    cases existing with
    | some existing =>
      apply Safe.bind
      apply accounts_await looked (.owner signsIn)
      intro σ₂ res₂ ch₂ w₂ w₂' _ _ owned
      cases res₂ with
      | error e => exact owned
      | ok user =>
        cases user with
        | none => exact owned
        | some user => exact ⟨.known user, owned, .commitKnown signsIn, rfl⟩
    | none =>
      apply Safe.bind
      apply accounts_await looked (.byEmail signsIn)
      intro σ₂ res₂ ch₂ w₂ w₂' _ _ found
      cases res₂ with
      | error e => exact found
      | ok user =>
        cases user with
        | some user => exact links user σ₂ found
        | none =>
          apply Safe.bind
          apply accounts_await found (.create signsIn)
          intro σ₃ res₃ ch₃ w₃ w₃' _ _ created
          cases res₃ with
          | error e => exact created
          | ok inserted =>
            apply Safe.bind
            apply accounts_await created (.reread signsIn)
            intro σ₄ res₄ ch₄ w₄ w₄' _ _ reread
            cases res₄ with
            | error e => exact reread
            | ok user =>
              cases user with
              | none => exact reread
              | some user => exact links user σ₄ reread

theorem findOrCreateFromProvider_safe {identity : GithubIdentity}
    (signsIn : r.identity? = some identity) (here : At σ i r ⟨false, .began⟩) :
    Safe (accounts P) G i (fun res σ' => ∃ again, match res with
      | .ok user => At σ' i r ⟨again, .signedIn user⟩
      | .error _ => At σ' i r ⟨again, .gaveUp⟩)
      (UsersService.findOrCreateFromProvider identity) σ := by
  -- the same transaction twice: the second time `again` is set
  have attempt : ∀ (again : Bool) (σ' : Shared (mikrouli P)), At σ' i r ⟨again, .began⟩ →
      Safe (accounts P) G i (Over P i r again .signedIn)
        (transaction (resolveProviderIdentity identity)) σ' :=
    fun again σ' there =>
      transaction_safe (fun _ => .undo signsIn) (resolveProviderIdentity_safe signsIn there)
  apply Safe.tryCatch
  refine (attempt false σ here).mono fun res σ' post => ?_
  cases res with
  | ok user => exact ⟨false, post⟩
  | error e =>
    simp only
    split
    next violation =>
      have second : At σ' i r ⟨true, .began⟩ := by
        simpa [Over, Progress.undone, violation] using post
      refine (attempt true σ' second).mono fun res σ'' post => ?_
      cases res with
      | ok user => exact ⟨true, post⟩
      | error e => exact ⟨true, by simpa [Over, Progress.undone] using post⟩
    next other => exact ⟨false, by simpa [Over, Progress.undone, other] using post⟩

theorem register_safe {email password : String}
    (here : At σ i (.register email password) ⟨false, .began⟩) :
    Safe (accounts P) G i (fun res σ' => match res with
      | .ok user => (∃ row : User, At σ' i (.register email password) ⟨false, .registered row⟩ ∧
          user = ⟨row.id, row.email, row.createdAt⟩) ∨
          At σ' i (.register email password) ⟨true, .began⟩
      | .error _ => At σ' i (.register email password) ⟨false, .gaveUp⟩)
      (AuthService.register email password) σ := by
  apply Safe.bind
  apply accounts_await here .hash
  intro σ₁ res₁ ch₁ w₁ w₁' returned₁ _ hashed
  obtain ⟨-, salt, rfl⟩ := exec_bcryptHash returned₁
  have kept : Safe (accounts P) G i (Over P i (.register email password) false .registered)
      (transaction (await (.insertUser email (some (P.bcryptHash password salt))))) σ₁ := by
    apply transaction_safe fun _ => .discard
    apply accounts_await hashed (.register salt)
    intro σ₂ res₂ ch₂ w₂ w₂' _ _ inserted
    cases res₂ with
    | error e => exact inserted
    | ok user => exact ⟨.created user, inserted, .keep, rfl⟩
  apply Safe.bind
  apply Safe.tryCatch
  refine kept.mono fun res₂ σ₂ post => ?_
  cases res₂ with
  | ok user => exact .inl ⟨user, post, rfl⟩
  | error e =>
    simp only
    split
    next violation =>
      -- the email was taken: what follows is the decoy, which writes nothing
      have second : At σ₂ i (.register email password) ⟨true, .began⟩ := by
        simpa [Over, Progress.undone, violation] using post
      apply Safe.bind
      apply accounts_await second .decoyId
      intro σ₃ res₃ ch₃ w₃ w₃' returned₃ _ drew
      obtain ⟨rfl, -⟩ := exec_randomUUID returned₃
      apply Safe.bind
      apply accounts_await drew .decoyDate
      intro σ₄ res₄ ch₄ w₄ w₄' returned₄ _ dated
      obtain ⟨-, rfl⟩ := exec_dateNow returned₄
      exact .inr dated
    next other =>
      have gaveUp : At σ₂ i (.register email password) ⟨false, .gaveUp⟩ := by
        simpa [Over, Progress.undone, other] using post
      exact gaveUp

theorem validateCredentials_safe {email password : String}
    (was : asked (σ.own i) = some (.validateCredentials email password)) :
    Safe (accounts P) G i (fun res σ' =>
      asked (σ'.own i) = some (.validateCredentials email password) ∧
      ∀ user, res = .ok (some user) →
        .call (.findUserByEmail email) (.ok (some user)) ∈ σ'.own i ∧
        ∃ passwordHash, user.passwordHash = some passwordHash ∧
          P.bcryptCompare password passwordHash = true)
      (AuthService.validateCredentials P email password) σ := by
  apply Safe.bind
  apply accounts_await ⟨was, rfl⟩ (.elsewhere rfl rfl)
  intro σ₁ res₁ ch₁ w₁ w₁' _ own₁ there
  cases res₁ with
  | error e => exact ⟨there.1, fun user answered => by cases answered⟩
  | ok found =>
    refine ⟨there.1, fun user answered => ?_⟩
    simp only [Except.ok.injEq] at answered
    split at answered
    · cases answered
    next valid =>
      subst answered
      push Not at valid
      obtain ⟨stored, -, matched⟩ := valid
      rw [own₁]
      refine ⟨List.mem_cons_self, ?_⟩
      obtain ⟨passwordHash, stored⟩ := Option.ne_none_iff_exists'.mp stored
      refine ⟨passwordHash, stored, ?_⟩
      simpa [stored] using matched

theorem reads_of_mayIssue (other : r.onAccounts = false) {c : Cmd} (issued : r.MayIssue c) :
    c.writesAccounts = false := by
  cases c with
  | commit | rollback | insertUser _ _ | saveProviderAccount _ _ =>
    have onAccounts : r.onAccounts = true := issued
    rw [other] at onAccounts
    cases onAccounts
  | _ => rfl

theorem serve_accountsSafe (fresh : σ.own i = [.start r]) :
    Safe (accounts P) G i ((accounts P).Post i r) (serve P r) σ := by
  have was : asked (σ.own i) = some r := by rw [fresh]; rfl
  have here : At σ i r ⟨false, .began⟩ := ⟨was, by rw [fresh]; rfl⟩
  cases r with
  | register email password =>
    apply Safe.map
    refine (register_safe here).mono fun res σ' post => ?_
    cases res with
    | error e => exact ⟨post.1, congrArg Progress.stage post.2⟩
    | ok user =>
      rcases post with ⟨row, there, rfl⟩ | there
      · exact ⟨there.1, .inl ⟨row, there.2, rfl⟩⟩
      · exact ⟨there.1, .inr there.2⟩
  | findOrCreateFromProvider identity =>
    apply Safe.map
    refine (findOrCreateFromProvider_safe rfl here).mono fun res σ' post => ?_
    obtain ⟨again, post⟩ := post
    cases res with
    | error e => exact ⟨post.1, congrArg Progress.stage post.2⟩
    | ok user => exact ⟨post.1, user, congrArg Progress.stage post.2, rfl⟩
  | loginWithGithub identity =>
    apply Safe.map
    apply Safe.bind
    refine (findOrCreateFromProvider_safe rfl here).mono fun res σ' post => ?_
    obtain ⟨again, post⟩ := post
    cases res with
    | error e => exact ⟨post.1, trivial⟩
    | ok user =>
      -- tokens are issued after the transaction and do not move it
      have issues : Prog.Only (fun c : Cmd => c.writesAccounts = false ∧
          ∀ s res, Progress.next (P := P) s (.call c res) = s) (AuthService.issueTokens P user) :=
        only_issueTokens ⟨rfl, fun _ res => by cases res <;> rfl⟩
          (fun _ _ _ => ⟨rfl, fun _ res => by cases res <;> rfl⟩)
          fun _ _ _ => ⟨rfl, fun _ res => by cases res <;> rfl⟩
      refine Safe.of_only
        (K := fun σ => At σ i (.loginWithGithub identity) ⟨again, .signedIn user⟩) issues ?_ ?_ ?_
        post
      · intro σ σ' rely there
        have same : σ'.own i = σ.own i := rely
        rw [At, same]
        exact there
      · rintro c σ ⟨reads, stays⟩ rooted there
        refine ⟨⟨_, there.1, ?_⟩, fun ch res w returned _ => ⟨rooted.called returned, ?_, ?_⟩⟩
        · rw [there.2]
          exact .issue reads
        · exact fun j other => Shared.called_own_of_ne other σ c res w
        · rw [At, Shared.called_own_self, asked_call, progress, stays]
          exact there
      · intro res σ there
        refine ⟨there.1, ?_⟩
        cases res <;> trivial
  | validateCredentials email password =>
    apply Safe.map
    refine (validateCredentials_safe was).mono fun res σ' post => ?_
    obtain ⟨there, matches_⟩ := post
    cases res with
    | error e => exact ⟨there, trivial⟩
    | ok found =>
      cases found with
      | none => exact ⟨there, trivial⟩
      | some user => exact ⟨there, matches_ user rfl⟩
  | _ =>
    refine accounts_elsewhere ((serve_only P _).mono fun c issued => reads_of_mayIssue rfl issued)
      rfl was fun res σ' there => ⟨there, ?_⟩
    cases res <;> trivial

theorem accounts_sound : (accounts P).Sound G := by
  constructor
  · exact fun σ ms rooted _ => ⟨rooted, fun _ => rfl⟩
  · intro σ n r rooted fresh _
    refine ⟨rooted.started r, fun j other => Shared.started_own_of_ne other σ r, ?_⟩
    apply serve_accountsSafe
    rw [Shared.started_own_self, fresh]

theorem accounts_initial (w₀ : World) : (accounts P).Holds G (initial w₀) :=
  ⟨fun _ => trivial, by simp [initial], by simp [initial]⟩

end Programs

end Mikrouli
