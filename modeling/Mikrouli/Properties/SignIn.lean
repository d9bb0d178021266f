import Mikrouli.Properties.Accounts

/-! Concurrent sign-ins with one GitHub identity, and registrations of its email. -/

namespace Mikrouli

open Async Store

variable {P : Platform} {identity : GithubIdentity}

/-! ### Racing transactions -/

/-- Sign-ins with the identity and registrations of its email, with no error but unique
violations. -/
def racing (P : Platform) (identity : GithubIdentity) : Guard (mikrouli P)
  | _, .start r =>
    r = .findOrCreateFromProvider identity ∨ ∃ password, r = .register identity.email password
  | _, .call _ _ ch => ch.fault = none
  | _, .env _ => True

/-- A committed user has the email of the identity. -/
def World.Taken (identity : GithubIdentity) (w : World) : Prop :=
  ∃ user : User, ⟨user, none⟩ ∈ w.users.rows ∧ user.email = identity.email

/-- A committed provider account is that of the identity. -/
def World.Linked (identity : GithubIdentity) (w : World) : Prop :=
  ∃ account : ProviderAccount, ⟨account, none⟩ ∈ w.providerAccounts.rows ∧
    account.providerUserId = identity.providerUserId

/-- The accounts tables agree and only the random source has moved. -/
structure World.Still (w w' : World) : Prop where
  users : w'.users = w.users
  accounts : w'.providerAccounts = w.providerAccounts
  drawn : w.drawn ⊆ w'.drawn

/-- What one command of transaction `i` can do: to the accounts tables and to its progress. -/
inductive Turn (identity : GithubIdentity) (i : Nat) (w w' : World) : Progress → Progress → Prop
  | idle {again : Bool} (still : w.Still w') : Turn identity i w w' ⟨again, .began⟩ ⟨again, .began⟩
  | missed {again : Bool} (still : w.Still w') (unlinked : ¬w.Linked identity) :
      Turn identity i w w' ⟨again, .began⟩ ⟨again, .unlinked⟩
  | hit {again : Bool} {account : ProviderAccount} (still : w.Still w')
      (committed : ⟨account, none⟩ ∈ w.providerAccounts.rows)
      (same : account.providerUserId = identity.providerUserId) :
      Turn identity i w w' ⟨again, .began⟩ ⟨again, .linked account⟩
  | owner {again : Bool} {account : ProviderAccount} {user : User} (still : w.Still w')
      (linked : w.Linked identity) (email : user.email = identity.email) :
      Turn identity i w w' ⟨again, .linked account⟩ ⟨again, .known user⟩
  | found {again : Bool} {user : User} (still : w.Still w')
      (email : user.email = identity.email) :
      Turn identity i w w' ⟨again, .unlinked⟩ ⟨again, .chosen user⟩
  | free {again : Bool} (still : w.Still w') (free : ¬w.Taken identity) :
      Turn identity i w w' ⟨again, .unlinked⟩ ⟨again, .unused⟩
  | create {again : Bool} {stage : Stage} {user : User}
      (before : stage = .began ∧ again = false ∨ stage = .unused)
      (email : user.email = identity.email) (fresh : user.id ∉ w.drawn)
      (drawn : w'.drawn = user.id :: w.drawn)
      (users : w'.users.rows = ⟨user, some i⟩ :: w.users.rows)
      (accounts : w'.providerAccounts = w.providerAccounts) :
      Turn identity i w w' ⟨again, stage⟩ ⟨again, .created user⟩
  | taken {again : Bool} {stage : Stage}
      (before : stage = .began ∧ again = false ∨ stage = .unused) (still : w.Still w')
      (taken : w.Taken identity) : Turn identity i w w' ⟨again, stage⟩ ⟨again, .failed true⟩
  | reread {again : Bool} {created user : User} (still : w.Still w')
      (email : user.email = identity.email) :
      Turn identity i w w' ⟨again, .created created⟩ ⟨again, .chosen user⟩
  | save {again : Bool} {user : User} {account : ProviderAccount}
      (same : account.providerUserId = identity.providerUserId) (owner : account.userId = user.id)
      (drawn : w'.drawn = account.id :: w.drawn) (users : w'.users = w.users)
      (accounts : w'.providerAccounts.rows = ⟨account, some i⟩ :: w.providerAccounts.rows) :
      Turn identity i w w' ⟨again, .chosen user⟩ ⟨again, .saved user⟩
  | lost {again : Bool} {user : User} (still : w.Still w') (linked : w.Linked identity) :
      Turn identity i w w' ⟨again, .chosen user⟩ ⟨again, .failed true⟩
  | keep {again : Bool} {user : User} (commit : w' = w.commit i) :
      Turn identity i w w' ⟨again, .created user⟩ ⟨again, .registered user⟩
  | link {again : Bool} {user : User} (commit : w' = w.commit i) :
      Turn identity i w w' ⟨again, .saved user⟩ ⟨again, .signedIn user⟩
  | return_ {again : Bool} {user : User} (commit : w' = w.commit i) :
      Turn identity i w w' ⟨again, .known user⟩ ⟨again, .signedIn user⟩
  | undo {again violation : Bool} (rollback : w' = w.rollback i) :
      Turn identity i w w' ⟨again, .failed violation⟩ (Progress.undone ⟨again, .failed violation⟩)

/-- A transaction at this stage may have rows that are not committed. -/
def Stage.isOpen : Stage → Bool
  | .created _ | .chosen _ | .saved _ | .failed _ => true
  | _ => false

/-- What the tables back at each stage, beyond `Grounded`. -/
def Standing (identity : GithubIdentity) (w : World) (i : Nat) (s : Progress) : Prop :=
  (s.again = true → w.Taken identity) ∧ match s.stage with
    | .linked account => ⟨account, none⟩ ∈ w.providerAccounts.rows ∧
        account.providerUserId = identity.providerUserId
    | .unused => s.again = false
    | .created user | .chosen user | .registered user => user.email = identity.email
    | .saved user => user.email = identity.email ∧ ∃ account : ProviderAccount,
        ⟨account, some i⟩ ∈ w.providerAccounts.rows ∧
        account.providerUserId = identity.providerUserId ∧ account.userId = user.id
    | .known user | .signedIn user => user.email = identity.email ∧ w.Linked identity
    | .failed violation => violation = true ∧ w.Taken identity
    | _ => True

/-- Ids were drawn, and the identity's account and the user of its email belong together. -/
structure World.Paired (identity : GithubIdentity) (w : World) : Prop where
  users : ∀ v ∈ w.users.rows, v.row.id ∈ w.drawn
  accounts : ∀ v ∈ w.providerAccounts.rows, v.row.id ∈ w.drawn ∧ v.row.userId ∈ w.drawn
  owned : ∀ account : ProviderAccount, ⟨account, none⟩ ∈ w.providerAccounts.rows →
    account.providerUserId = identity.providerUserId →
    ∃ user : User, ⟨user, none⟩ ∈ w.users.rows ∧ user.email = identity.email ∧
      account.userId = user.id
  foreign : ∀ v ∈ w.providerAccounts.rows, ∀ u ∈ w.users.rows, u.row.email = identity.email →
    v.row.userId = u.row.id → v.row.providerUserId = identity.providerUserId

/-- The invariant of racing sign-ins and registrations. -/
structure Race (identity : GithubIdentity) (σ : Shared (mikrouli P)) : Prop where
  asked : ∀ i r, asked (σ.own i) = some r →
    r = .findOrCreateFromProvider identity ∨ ∃ password, r = .register identity.email password
  paired : σ.world.Paired identity
  openUsers : ∀ v ∈ σ.world.users.rows, ∀ k, v.tx = some k →
    (progress (σ.own k)).stage.isOpen = true
  openAccounts : ∀ v ∈ σ.world.providerAccounts.rows, ∀ k, v.tx = some k →
    ∃ user : User, (progress (σ.own k)).stage = .saved user ∧ v.row.userId = user.id ∧
      v.row.providerUserId = identity.providerUserId
  standing : ∀ i, Standing identity σ.world i (progress (σ.own i))

section Step

variable {G : Guard (mikrouli P)} {σ σ' : Shared (mikrouli P)} {i : Nat} {c : Cmd} {ch : Choice}
  {w w' : World} {res : Except AppError c.Res}

theorem World.Still.refl (w : World) : w.Still w := ⟨rfl, rfl, List.Subset.refl _⟩

theorem identity_of_asked {r : Req} {identity' : GithubIdentity}
    (was : r = .findOrCreateFromProvider identity ∨
      ∃ password, r = .register identity.email password)
    (signsIn : r.identity? = some identity') : identity' = identity := by
  rcases was with rfl | ⟨password, rfl⟩
  · exact (Option.some.inj signsIn).symm
  · cases signsIn

/-- Before its first insertion a transaction sees committed rows only. -/
theorem Race.committed_of_visible (race : Race identity σ)
    (closed : (progress (σ.own i)).stage.isOpen = false) {v : Versioned User}
    (member : v ∈ σ.world.users.rows) (seen : v.visible i = true) : v.tx = none := by
  rcases Versioned.visible_eq_true.mp seen with none | own
  · exact none
  · rw [race.openUsers v member i own] at closed
    cases closed

theorem Race.committedAccount_of_visible (race : Race identity σ)
    (unsaved : ∀ user, (progress (σ.own i)).stage ≠ .saved user) {v : Versioned ProviderAccount}
    (member : v ∈ σ.world.providerAccounts.rows) (seen : v.visible i = true) : v.tx = none := by
  rcases Versioned.visible_eq_true.mp seen with none | own
  · exact none
  · obtain ⟨user, saved, -⟩ := race.openAccounts v member i own
    exact absurd saved (unsaved user)

/-- An insertion of a user with the email fails only on a committed one. -/
theorem Race.turn_insertUser (race : Race identity σ) {passwordHash : Option String}
    {res : Except AppError User} {again : Bool} {stage : Stage}
    (at_ : progress (σ.own i) = ⟨again, stage⟩)
    (before : stage = .began ∧ again = false ∨ stage = .unused)
    (returned : exec P i (.insertUser identity.email passwordHash) ch σ.world = some (res, w))
    (works : ch.fault = none) :
    Turn identity i σ.world w ⟨again, stage⟩
      ⟨again, stage.after (.insertUser identity.email passwordHash) res⟩ := by
  have closed : (progress (σ.own i)).stage.isOpen = false := by
    rw [at_]
    rcases before with ⟨rfl, -⟩ | rfl <;> rfl
  obtain ⟨accounts, ⟨faulty, -⟩ | ⟨fresh, drawn, clash | inserted⟩⟩ := exec_insertUser returned
  · exact absurd works faulty
  · obtain ⟨rfl, users, v, member, seen, same⟩ := clash
    refine .taken before ⟨users, accounts, by simp [drawn]⟩ ?_
    have committed := race.committed_of_visible closed member seen
    rcases same with id | email
    -- a fresh id clashes with none, so it is the email
    · exact absurd (id ▸ race.paired.users v member) fresh
    · exact ⟨v.row, committed ▸ member, email⟩
  · obtain ⟨user, row, rfl, users⟩ := inserted
    refine .create before ?_ ?_ ?_ users accounts
    · rw [row]
    · rw [row]
      exact fresh
    · rw [row]
      exact drawn

/-- A lookup of the identity finds its committed account, or there is none. -/
theorem Race.turn_lookUp (race : Race identity σ) {res : Except AppError (Option ProviderAccount)}
    {again : Bool} (at_ : progress (σ.own i) = ⟨again, .began⟩)
    (returned : exec P i (.findProviderAccount identity.providerUserId) ch σ.world = some (res, w))
    (works : ch.fault = none) :
    Turn identity i σ.world w ⟨again, .began⟩
      ⟨again, Stage.began.after (.findProviderAccount identity.providerUserId) res⟩ := by
  have unsaved : ∀ user, (progress (σ.own i)).stage ≠ .saved user := by simp [at_]
  obtain ⟨rfl, ⟨faulty, -⟩ | rfl⟩ := exec_findProviderAccount returned
  · exact absurd works faulty
  · cases looked : σ.world.providerAccount i identity.providerUserId with
    | none =>
      refine .missed (.refl _) ?_
      rintro ⟨account, committed, same⟩
      exact World.providerAccount_eq_none looked _ committed
        (Versioned.visible_eq_true.mpr (.inl rfl)) same
    | some account =>
      obtain ⟨v, member, rfl, seen, same⟩ := World.providerAccount_eq_some looked
      have committed := race.committedAccount_of_visible unsaved member seen
      exact .hit (.refl _) (committed ▸ member) same

/-- The user of a committed account is committed and has the email: the one that is looked up. -/
theorem Race.turn_owner (race : Race identity σ) {res : Except AppError (Option User)}
    {again : Bool} {account : ProviderAccount}
    (linked : ⟨account, none⟩ ∈ σ.world.providerAccounts.rows)
    (same : account.providerUserId = identity.providerUserId)
    (returned : exec P i (.findUserById account.userId) ch σ.world = some (res, w))
    (works : ch.fault = none) :
    Turn identity i σ.world w ⟨again, .linked account⟩
      ⟨again, (Stage.linked account).after (.findUserById account.userId) res⟩ := by
  obtain ⟨user, committed, email, owner⟩ := race.paired.owned account linked same
  obtain ⟨rfl, ⟨faulty, -⟩ | rfl⟩ := exec_findUserById returned
  · exact absurd works faulty
  · cases looked : σ.world.userById i account.userId with
    | none =>
      exact absurd owner.symm (World.userById_eq_none looked _ committed
        (Versioned.visible_eq_true.mpr (.inl rfl)))
    | some user' =>
      obtain ⟨v, member, rfl, seen, same'⟩ := World.userById_eq_some looked
      have row := Table.eq_of_key (k := fun v : Versioned User => v.row.id) (by simp) committed
        member (owner.symm.trans same'.symm)
      subst row
      exact .owner (.refl _) ⟨account, linked, same⟩ email

/-- An insertion of the identity's account clashes with the identity itself, or with its user's
account, who has no other identity. -/
theorem Race.turn_saveAccount (race : Race identity σ) {res : Except AppError ProviderAccount}
    {again : Bool} {user : User} (at_ : progress (σ.own i) = ⟨again, .chosen user⟩)
    (sees : σ.world.Sees i user) (email : user.email = identity.email)
    (returned : exec P i (.saveProviderAccount identity.providerUserId user.id) ch σ.world =
      some (res, w)) (works : ch.fault = none) :
    Turn identity i σ.world w ⟨again, .chosen user⟩ ⟨again,
      (Stage.chosen user).after (.saveProviderAccount identity.providerUserId user.id) res⟩ := by
  have unsaved : ∀ user, (progress (σ.own i)).stage ≠ .saved user := by simp [at_]
  obtain ⟨users, ⟨faulty, -⟩ | ⟨fresh, drawn, clash | inserted⟩⟩ :=
    exec_saveProviderAccount returned
  · exact absurd works faulty
  · obtain ⟨rfl, accounts, v, member, seen, same⟩ := clash
    refine .lost ⟨users, accounts, by simp [drawn]⟩ ?_
    have committed := race.committedAccount_of_visible unsaved member seen
    rcases same with id | same | owner
    · exact absurd (id ▸ (race.paired.accounts v member).1) fresh
    · exact ⟨v.row, committed ▸ member, same⟩
    · obtain ⟨u, there, rfl, -⟩ := sees
      exact ⟨v.row, committed ▸ member, race.paired.foreign v member u there email owner⟩
  · obtain ⟨account, row, rfl, accounts⟩ := inserted
    refine .save ?_ ?_ ?_ users accounts
    · rw [row]
    · rw [row]
    · rw [row]
      exact drawn

/-- What a racing thread's command does. -/
theorem Race.turn (race : Race identity σ) (rooted : Rooted σ) (pre : (accounts P).Pre i c σ)
    (returned : exec P i c ch σ.world = some (res, w)) (works : ch.fault = none) :
    Turn identity i σ.world w (progress (σ.own i))
      ((progress (σ.own i)).next (P := P) (.call c res)) := by
  obtain ⟨r, was, allowed⟩ := pre
  have sender := race.asked i r was
  have grounded := rooted i
  have standing := race.standing i
  generalize at_ : progress (σ.own i) = s at allowed grounded standing
  cases allowed with
  | hash =>
    obtain ⟨rfl, salt, rfl⟩ := exec_bcryptHash returned
    exact .idle (.refl _)
  | register salt =>
    rcases sender with same | ⟨password, same⟩
    · cases same
    · cases same
      exact race.turn_insertUser at_ (.inl ⟨rfl, rfl⟩) returned works
  | keep =>
    rcases exec_commit returned with ⟨faulty, -⟩ | ⟨-, rfl, rfl⟩
    · exact absurd works faulty
    · exact .keep rfl
  | discard =>
    obtain ⟨rfl, rfl⟩ := exec_rollback returned
    exact .undo rfl
  | decoyId =>
    obtain ⟨rfl, -, -, rfl⟩ := exec_randomUUID returned
    exact .idle ⟨rfl, rfl, List.subset_cons_self _ _⟩
  | decoyDate =>
    obtain ⟨rfl, rfl⟩ := exec_dateNow returned
    exact .idle (.refl _)
  | lookUp signsIn =>
    cases identity_of_asked sender signsIn
    exact race.turn_lookUp at_ returned works
  | owner signsIn => exact race.turn_owner standing.2.1 standing.2.2 returned works
  | byEmail signsIn =>
    cases identity_of_asked sender signsIn
    obtain ⟨rfl, ⟨faulty, -⟩ | rfl⟩ := exec_findUserByEmail returned
    · exact absurd works faulty
    · cases looked : σ.world.userByEmail i identity.email with
      | none =>
        refine .free (.refl _) ?_
        rintro ⟨user, committed, same⟩
        exact World.userByEmail_eq_none looked _ committed
          (Versioned.visible_eq_true.mpr (.inl rfl)) same
      | some user =>
        obtain ⟨-, -, -, -, email⟩ := World.userByEmail_eq_some looked
        exact .found (.refl _) email
  | create signsIn =>
    cases identity_of_asked sender signsIn
    exact race.turn_insertUser at_ (.inr rfl) returned works
  | reread signsIn =>
    cases identity_of_asked sender signsIn
    obtain ⟨rfl, ⟨faulty, -⟩ | rfl⟩ := exec_findUserByEmail returned
    · exact absurd works faulty
    · cases looked : σ.world.userByEmail i identity.email with
      | none =>
        -- the transaction's own row is there
        exact absurd standing.2 (World.userByEmail_eq_none looked _ grounded
          (Versioned.visible_eq_true.mpr (.inr rfl)))
      | some user =>
        obtain ⟨-, -, -, -, email⟩ := World.userByEmail_eq_some looked
        exact .reread (.refl _) email
  | link signsIn =>
    cases identity_of_asked sender signsIn
    exact race.turn_saveAccount at_ grounded standing.2 returned works
  | commitSaved =>
    rcases exec_commit returned with ⟨faulty, -⟩ | ⟨-, rfl, rfl⟩
    · exact absurd works faulty
    · exact .link rfl
  | commitKnown =>
    rcases exec_commit returned with ⟨faulty, -⟩ | ⟨-, rfl, rfl⟩
    · exact absurd works faulty
    · exact .return_ rfl
  | undo =>
    obtain ⟨rfl, rfl⟩ := exec_rollback returned
    exact .undo rfl
  | issue =>
    rcases sender with same | ⟨password, same⟩ <;> cases same
  | elsewhere other =>
    rcases sender with rfl | ⟨password, rfl⟩ <;> cases other

/-- What a turn does to the tables. -/
theorem Turn.effect {s s' : Progress} (turn : Turn identity i w w' s s') :
    w.Still w' ∨
    (∃ user : User, s'.stage = .created user ∧ user.email = identity.email ∧
      user.id ∉ w.drawn ∧ w'.drawn = user.id :: w.drawn ∧
      w'.users.rows = ⟨user, some i⟩ :: w.users.rows ∧
      w'.providerAccounts = w.providerAccounts) ∨
    (∃ (user : User) (account : ProviderAccount), s.stage = .chosen user ∧
      account.providerUserId = identity.providerUserId ∧ account.userId = user.id ∧
      w'.drawn = account.id :: w.drawn ∧ w'.users = w.users ∧
      w'.providerAccounts.rows = ⟨account, some i⟩ :: w.providerAccounts.rows) ∨
    w' = w.commit i ∨ w' = w.rollback i := by
  cases turn with
  | idle still | missed still | hit still | owner still | found still | free still
  | reread still | lost still => exact .inl still
  | taken _ still => exact .inl still
  | create _ email fresh drawn users accounts =>
    exact .inr (.inl ⟨_, rfl, email, fresh, drawn, users, accounts⟩)
  | save same owner drawn users accounts =>
    exact .inr (.inr (.inl ⟨_, _, rfl, same, owner, drawn, users, accounts⟩))
  | keep commit | link commit | return_ commit => exact .inr (.inr (.inr (.inl commit)))
  | undo rollback => exact .inr (.inr (.inr (.inr rollback)))

theorem World.Paired.still (paired : w.Paired identity) (still : w.Still w') :
    w'.Paired identity := by
  constructor
  · intro v member
    rw [still.users] at member
    exact still.drawn (paired.users v member)
  · intro v member
    rw [still.accounts] at member
    exact ⟨still.drawn (paired.accounts v member).1, still.drawn (paired.accounts v member).2⟩
  · rw [still.users, still.accounts]
    exact paired.owned
  · rw [still.users, still.accounts]
    exact paired.foreign

/-- No account mentions the id of a new user. -/
theorem World.Paired.insertUser {user : User} (paired : w.Paired identity)
    (fresh : user.id ∉ w.drawn) (drawn : w'.drawn = user.id :: w.drawn)
    (users : w'.users.rows = ⟨user, some i⟩ :: w.users.rows)
    (accounts : w'.providerAccounts = w.providerAccounts) : w'.Paired identity := by
  constructor
  · intro v member
    rw [users] at member
    rw [drawn]
    rcases List.mem_cons.mp member with rfl | before
    · exact List.mem_cons_self
    · exact List.mem_cons_of_mem _ (paired.users v before)
  · intro v member
    rw [accounts] at member
    rw [drawn]
    exact ⟨List.mem_cons_of_mem _ (paired.accounts v member).1,
      List.mem_cons_of_mem _ (paired.accounts v member).2⟩
  · intro account committed same
    rw [accounts] at committed
    obtain ⟨owner, there, rest⟩ := paired.owned account committed same
    rw [users]
    exact ⟨owner, List.mem_cons_of_mem _ there, rest⟩
  · intro v member u there sameEmail owner
    rw [accounts] at member
    rw [users] at there
    rcases List.mem_cons.mp there with rfl | before
    · exact absurd (owner ▸ (paired.accounts v member).2) fresh
    · exact paired.foreign v member u before sameEmail owner

/-- A new account is of a user that its transaction sees. -/
theorem World.Paired.saveAccount {user : User} {account : ProviderAccount}
    (paired : w.Paired identity) (sees : w.Sees i user)
    (same : account.providerUserId = identity.providerUserId) (owner : account.userId = user.id)
    (drawn : w'.drawn = account.id :: w.drawn) (users : w'.users = w.users)
    (accounts : w'.providerAccounts.rows = ⟨account, some i⟩ :: w.providerAccounts.rows) :
    w'.Paired identity := by
  obtain ⟨u, there, row, -⟩ := sees
  constructor
  · intro v member
    rw [users] at member
    rw [drawn]
    exact List.mem_cons_of_mem _ (paired.users v member)
  · intro v member
    rw [accounts] at member
    rw [drawn]
    rcases List.mem_cons.mp member with rfl | before
    · refine ⟨List.mem_cons_self, List.mem_cons_of_mem _ ?_⟩
      rw [owner, ← row]
      exact paired.users u there
    · exact ⟨List.mem_cons_of_mem _ (paired.accounts v before).1,
        List.mem_cons_of_mem _ (paired.accounts v before).2⟩
  · intro account' committed same'
    rw [accounts] at committed
    rw [users]
    rcases List.mem_cons.mp committed with now | before
    · cases now
    · exact paired.owned account' before same'
  · intro v member u there sameEmail owner
    rw [accounts] at member
    rw [users] at there
    rcases List.mem_cons.mp member with rfl | before
    · exact same
    · exact paired.foreign v before u there sameEmail owner

/-- A commit keeps the pairing where the transaction sees the user of each account of its own. -/
theorem World.Paired.commit (paired : w.Paired identity)
    (own : ∀ v ∈ w.providerAccounts.rows, v.tx = some i →
      ∃ user, w.Sees i user ∧ user.email = identity.email ∧ v.row.userId = user.id) :
    (w.commit i).Paired identity := by
  constructor
  · intro v member
    obtain ⟨v', there, same⟩ := mem_users_commit.mp member
    rw [← (commitRows_cases same).1]
    exact paired.users v' there
  · intro v member
    obtain ⟨v', there, same⟩ := mem_providerAccounts_commit.mp member
    rw [← (commitRows_cases same).1]
    exact paired.accounts v' there
  · intro account committed sameIdentity
    obtain ⟨v', there, same⟩ := mem_providerAccounts_commit.mp committed
    obtain ⟨row, ⟨rfl, -⟩ | ⟨opened, -⟩⟩ := commitRows_cases same
    · obtain ⟨user, before, rest⟩ := paired.owned account there sameIdentity
      exact ⟨user, mem_users_commit.mpr ⟨_, before, commitRows_of_ne (by simp)⟩, rest⟩
    · obtain ⟨user, sees, email, owner⟩ := own v' there opened
      refine ⟨user, ?_, email, ?_⟩
      · rcases sees_iff.mp sees with before | before
        · exact mem_users_commit.mpr ⟨_, before, commitRows_of_ne (by simp)⟩
        · exact mem_users_commit.mpr ⟨_, before, commitRows_own user⟩
      · have same' : v'.row = account := row
        rw [← same']
        exact owner
  · intro v member u there sameEmail owner
    obtain ⟨v', before, same⟩ := mem_providerAccounts_commit.mp member
    obtain ⟨u', before', same'⟩ := mem_users_commit.mp there
    rw [← (commitRows_cases same).1] at owner ⊢
    rw [← (commitRows_cases same').1] at owner sameEmail
    exact paired.foreign v' before u' before' sameEmail owner

theorem World.Paired.rollback (paired : w.Paired identity) : (w.rollback i).Paired identity := by
  constructor
  · exact fun v member => paired.users v (mem_users_rollback.mp member).1
  · exact fun v member => paired.accounts v (mem_providerAccounts_rollback.mp member).1
  · intro account committed same
    obtain ⟨user, there, rest⟩ :=
      paired.owned account (mem_providerAccounts_rollback.mp committed).1 same
    exact ⟨user, mem_users_rollback.mpr ⟨there, by simp⟩, rest⟩
  · exact fun v member u there => paired.foreign v (mem_providerAccounts_rollback.mp member).1 u
      (mem_users_rollback.mp there).1

theorem Race.paired_turn (race : Race identity σ) (rooted : Rooted σ) {s' : Progress}
    (turn : Turn identity i σ.world w (progress (σ.own i)) s') : w.Paired identity := by
  have paired := race.paired
  have grounded := rooted i
  rcases turn.effect with still | ⟨user, -, email, fresh, drawn, users, accounts⟩ |
    ⟨user, account, chosen, same, owner, drawn, users, accounts⟩ | rfl | rfl
  · exact paired.still still
  · exact paired.insertUser fresh drawn users accounts
  · rw [chosen] at grounded
    exact paired.saveAccount grounded same owner drawn users accounts
  · refine paired.commit fun v there own => ?_
    -- the transaction's own account, whose user it sees
    obtain ⟨user, saved, owner, -⟩ := race.openAccounts v there i own
    have standing := race.standing i
    rw [saved] at grounded
    rw [Standing, saved] at standing
    exact ⟨user, grounded, standing.2.1, owner⟩
  · exact paired.rollback

/-- A row that another transaction has not committed was there before. -/
theorem Turn.openUser_before {s s' : Progress} (turn : Turn identity i w w' s s') {k : Nat}
    (other : k ≠ i) {v : Versioned User} (member : v ∈ w'.users.rows) (tx : v.tx = some k) :
    v ∈ w.users.rows := by
  rcases turn.effect with still | ⟨user, -, -, -, -, users, -⟩ | ⟨user, account, -, -, -, -, users, -⟩ |
    rfl | rfl
  · rw [still.users] at member
    exact member
  · rw [users] at member
    rcases List.mem_cons.mp member with rfl | before
    · exact absurd (Option.some.inj tx).symm other
    · exact before
  · rw [users] at member
    exact member
  · obtain ⟨v', there, same⟩ := mem_users_commit.mp member
    obtain ⟨-, ⟨rfl, -⟩ | ⟨-, none⟩⟩ := commitRows_cases same
    · exact there
    · rw [none] at tx
      cases tx
  · exact (mem_users_rollback.mp member).1

theorem Turn.openAccount_before {s s' : Progress} (turn : Turn identity i w w' s s') {k : Nat}
    (other : k ≠ i) {v : Versioned ProviderAccount} (member : v ∈ w'.providerAccounts.rows)
    (tx : v.tx = some k) : v ∈ w.providerAccounts.rows := by
  rcases turn.effect with still | ⟨user, -, -, -, -, -, accounts⟩ |
    ⟨user, account, -, -, -, -, -, accounts⟩ | rfl | rfl
  · rw [still.accounts] at member
    exact member
  · rw [accounts] at member
    exact member
  · rw [accounts] at member
    rcases List.mem_cons.mp member with rfl | before
    · exact absurd (Option.some.inj tx).symm other
    · exact before
  · obtain ⟨v', there, same⟩ := mem_providerAccounts_commit.mp member
    obtain ⟨-, ⟨rfl, -⟩ | ⟨-, none⟩⟩ := commitRows_cases same
    · exact there
    · rw [none] at tx
      cases tx
  · exact (mem_providerAccounts_rollback.mp member).1

theorem not_open_of_commit {v : Versioned User} (member : v ∈ (w.commit i).users.rows) :
    v.tx ≠ some i := by
  obtain ⟨v', -, same⟩ := mem_users_commit.mp member
  obtain ⟨-, ⟨-, other⟩ | ⟨-, none⟩⟩ := commitRows_cases same
  · exact other
  · simp [none]

theorem not_openAccount_of_commit {v : Versioned ProviderAccount}
    (member : v ∈ (w.commit i).providerAccounts.rows) : v.tx ≠ some i := by
  obtain ⟨v', -, same⟩ := mem_providerAccounts_commit.mp member
  obtain ⟨-, ⟨-, other⟩ | ⟨-, none⟩⟩ := commitRows_cases same
  · exact other
  · simp [none]

/-- A transaction with rows of its own stays open. -/
theorem Turn.isOpen {s s' : Progress} (turn : Turn identity i w w' s s')
    (before : ∀ v ∈ w.users.rows, v.tx = some i → s.stage.isOpen = true) {v : Versioned User}
    (member : v ∈ w'.users.rows) (tx : v.tx = some i) : s'.stage.isOpen = true := by
  cases turn with
  | idle still | missed still | hit still | owner still | found still | free still =>
    rw [still.users] at member
    cases before v member tx
  | create | taken | reread | save | lost => rfl
  | keep commit | link commit | return_ commit =>
    subst commit
    exact absurd tx (not_open_of_commit member)
  | undo rollback =>
    subst rollback
    exact absurd tx (mem_users_rollback.mp member).2

/-- A transaction with an account of its own has just saved it. -/
theorem Turn.isSaved {s s' : Progress} (turn : Turn identity i w w' s s')
    (before : ∀ v ∈ w.providerAccounts.rows, v.tx = some i → ∃ user : User, s.stage = .saved user)
    {v : Versioned ProviderAccount} (member : v ∈ w'.providerAccounts.rows)
    (tx : v.tx = some i) :
    ∃ user : User, s'.stage = .saved user ∧ v.row.userId = user.id ∧
      v.row.providerUserId = identity.providerUserId := by
  cases turn with
  | idle still | missed still | hit still | owner still | found still | free still
  | reread still | lost still =>
    rw [still.accounts] at member
    obtain ⟨user, saved⟩ := before v member tx
    cases saved
  | taken early still =>
    rw [still.accounts] at member
    obtain ⟨user, saved⟩ := before v member tx
    rcases early with ⟨rfl, -⟩ | rfl <;> cases saved
  | create early _ _ _ _ accounts =>
    rw [accounts] at member
    obtain ⟨user, saved⟩ := before v member tx
    rcases early with ⟨rfl, -⟩ | rfl <;> cases saved
  | @save again user account same owner drawn users accounts =>
    rw [accounts] at member
    rcases List.mem_cons.mp member with rfl | old
    · exact ⟨user, rfl, owner, same⟩
    · obtain ⟨user, saved⟩ := before v old tx
      cases saved
  | keep commit | link commit | return_ commit =>
    subst commit
    exact absurd tx (not_openAccount_of_commit member)
  | undo rollback =>
    subst rollback
    exact absurd tx (mem_providerAccounts_rollback.mp member).2

theorem World.Taken.kept (returned : exec P i c ch w = some (res, w')) :
    w.Taken identity → w'.Taken identity := by
  rintro ⟨user, committed, email⟩
  exact ⟨user, users_kept returned committed (by simp), email⟩

theorem World.Linked.kept (returned : exec P i c ch w = some (res, w')) :
    w.Linked identity → w'.Linked identity := by
  rintro ⟨account, committed, same⟩
  exact ⟨account, accounts_kept returned committed (by simp), same⟩

theorem Standing.other {j : Nat} {s : Progress} (returned : exec P i c ch w = some (res, w'))
    (other : j ≠ i) (standing : Standing identity w j s) : Standing identity w' j s := by
  obtain ⟨again, stage⟩ := s
  refine ⟨fun retried => (standing.1 retried).kept returned, ?_⟩
  have there := standing.2
  cases stage with
  | linked account => exact ⟨accounts_kept returned there.1 (by simp), there.2⟩
  | saved user =>
    obtain ⟨email, account, own, rest⟩ := there
    exact ⟨email, account, accounts_kept returned own (by simpa using other), rest⟩
  | known user | signedIn user => exact ⟨there.1, there.2.kept returned⟩
  | failed violation => exact ⟨there.1, there.2.kept returned⟩
  | _ => exact there

theorem World.Paired.taken (paired : w.Paired identity) : w.Linked identity → w.Taken identity := by
  rintro ⟨account, committed, same⟩
  obtain ⟨user, there, email, -⟩ := paired.owned account committed same
  exact ⟨user, there, email⟩

theorem Standing.turn {s s' : Progress} (paired : w.Paired identity)
    (standing : Standing identity w i s)
    (returned : exec P i c ch w = some (res, w')) (turn : Turn identity i w w' s s') :
    Standing identity w' i s' := by
  have retried : s.again = true → w'.Taken identity := fun again => (standing.1 again).kept returned
  cases turn with
  | idle => exact ⟨retried, trivial⟩
  | missed => exact ⟨retried, trivial⟩
  | hit still committed same =>
    rw [← still.accounts] at committed
    exact ⟨retried, committed, same⟩
  | owner still linked email => exact ⟨retried, email, linked.kept returned⟩
  | found still email => exact ⟨retried, email⟩
  -- a second pass cannot find the email free
  | free still free => exact ⟨retried, Bool.eq_false_iff.mpr fun again => free (standing.1 again)⟩
  | create before email => exact ⟨retried, email⟩
  | taken before still taken => exact ⟨retried, rfl, taken.kept returned⟩
  | reread still email => exact ⟨retried, email⟩
  | @save again user account same owner drawn users accounts =>
    refine ⟨retried, standing.2, account, ?_, same, owner⟩
    rw [accounts]
    exact List.mem_cons_self
  | lost still linked => exact ⟨retried, rfl, (paired.taken linked).kept returned⟩
  | keep => exact ⟨retried, standing.2⟩
  | link commit =>
    subst commit
    obtain ⟨email, account, own, same, -⟩ := standing.2
    exact ⟨retried, email, account, mem_providerAccounts_commit.mpr ⟨_, own, commitRows_own _⟩, same⟩
  | return_ => exact ⟨retried, standing.2.1, standing.2.2.kept returned⟩
  | undo =>
    -- undone after a violation, the second pass finds the email taken
    have taken := standing.2.2.kept returned
    simp only [Progress.undone]
    split
    · exact ⟨fun _ => taken, trivial⟩
    · exact ⟨retried, trivial⟩

theorem Race.called (race : Race identity σ) (rooted : Rooted σ) (pre : (accounts P).Pre i c σ)
    (returned : exec P i c ch σ.world = some (res, w)) (works : ch.fault = none) :
    Race identity (σ.called i c res w) := by
  have turn := race.turn rooted pre returned works
  have own : progress ((σ.called i c res w).own i) =
      (progress (σ.own i)).next (P := P) (.call c res) := by
    rw [Shared.called_own_self, progress]
  constructor
  case asked =>
    intro j r was
    rw [Shared.called_own] at was
    split at was
    · subst_vars
      exact race.asked _ r was
    · exact race.asked j r was
  case paired => exact race.paired_turn rooted turn
  case openUsers =>
    intro v member k tx
    rw [Shared.called_world] at member
    by_cases same : k = i
    · subst same
      rw [own]
      exact turn.isOpen (fun v member tx => race.openUsers v member k tx) member tx
    · rw [Shared.called_own_of_ne same]
      exact race.openUsers v (turn.openUser_before same member tx) k tx
  case openAccounts =>
    intro v member k tx
    rw [Shared.called_world] at member
    by_cases same : k = i
    · subst same
      rw [own]
      refine turn.isSaved (fun v member tx => ?_) member tx
      obtain ⟨user, saved, -⟩ := race.openAccounts v member k tx
      exact ⟨user, saved⟩
    · rw [Shared.called_own_of_ne same]
      exact race.openAccounts v (turn.openAccount_before same member tx) k tx
  case standing =>
    intro j
    by_cases same : j = i
    · subst same
      rw [own]
      exact (race.standing j).turn race.paired returned turn
    · rw [Shared.called_own_of_ne same]
      exact (race.standing j).other returned same

/-- A sign-in that has saved its account commits next. -/
theorem Race.commits (race : Race identity σ) (pre : (accounts P).Pre i c σ) {user : User}
    (saved : (progress (σ.own i)).stage = .saved user) : c = .commit := by
  obtain ⟨r, was, allowed⟩ := pre
  generalize progress (σ.own i) = s at saved allowed
  cases allowed with
  | commitSaved => rfl
  | elsewhere other => rcases race.asked i r was with rfl | ⟨password, rfl⟩ <;> cases other
  | _ => cases saved

theorem Race.started (race : Race identity σ) {n : Nat} {r : Req} (fresh : σ.own n = [])
    (allowed : racing P identity σ (.start r)) : Race identity (σ.started n r) := by
  constructor
  case asked =>
    intro j r' was
    rw [Shared.started_own] at was
    split at was
    next same =>
      subst same
      rw [fresh] at was
      cases was
      exact allowed
    next => exact race.asked j r' was
  case paired => exact race.paired
  case openUsers =>
    intro v member k tx
    rw [progress_started]
    exact race.openUsers v member k tx
  case openAccounts =>
    intro v member k tx
    rw [progress_started]
    exact race.openAccounts v member k tx
  case standing =>
    intro j
    rw [progress_started]
    exact race.standing j

theorem Race.acts (race : Race identity σ) (rooted : Rooted σ)
    (racers : ∀ σ a, G σ a → racing P identity σ a) (acts : (accounts P).Acts G σ σ') :
    Race identity σ' := by
  cases acts with
  | start n r fresh allowed => exact race.started fresh (racers _ _ allowed)
  | call pre returned allowed => exact race.called rooted pre returned (racers _ _ allowed)
  | env ms allowed =>
    exact ⟨race.asked, ⟨race.paired.users, race.paired.accounts, race.paired.owned,
      race.paired.foreign⟩, race.openUsers, race.openAccounts, race.standing⟩

/-- A database at rest in which the identity is not linked, nor is the user of its email. -/
structure World.Unlinked (identity : GithubIdentity) (w : World) : Prop where
  users : ∀ v ∈ w.users.rows, v.tx = none ∧ v.row.id ∈ w.drawn
  accounts : ∀ v ∈ w.providerAccounts.rows,
    v.tx = none ∧ v.row.id ∈ w.drawn ∧ v.row.userId ∈ w.drawn
  unlinked : ∀ v ∈ w.providerAccounts.rows, v.row.providerUserId ≠ identity.providerUserId
  free : ∀ v ∈ w.providerAccounts.rows, ∀ u ∈ w.users.rows, u.row.email = identity.email →
    v.row.userId ≠ u.row.id

theorem Race.initial {w₀ : World} (unlinked : w₀.Unlinked identity) :
    Race (P := P) identity ⟨w₀, []⟩ := by
  constructor
  case asked => exact fun i r was => by cases was
  case paired =>
    constructor
    · exact fun v member => (unlinked.users v member).2
    · exact fun v member => (unlinked.accounts v member).2
    · exact fun account committed same => absurd same (unlinked.unlinked _ committed)
    · exact fun v member u there email owner => absurd owner (unlinked.free v member u there email)
  case openUsers =>
    intro v member k tx
    rw [(unlinked.users v member).1] at tx
    cases tx
  case openAccounts =>
    intro v member k tx
    rw [(unlinked.accounts v member).1] at tx
    cases tx
  case standing => exact fun i => ⟨fun again => (by cases again), trivial⟩

end Step

/-! ### No deadlock -/

/-- The command can complete without a fault. -/
def CanRun (P : Platform) (i : Nat) (c : Cmd) (w : World) : Prop :=
  ∃ ch res w', ch.fault = none ∧ exec P i c ch w = some (res, w')

section Waiting

variable {G : Guard (mikrouli P)} {cfg : Config (mikrouli P)} {i : Nat} {w : World}

theorem Versioned.holder_of_hidden {V : Type} {v : Versioned V} (hidden : v.visible i = false) :
    ∃ k, v.tx = some k ∧ k ≠ i := by
  cases tx : v.tx with
  | none => simp [Versioned.visible, tx] at hidden
  | some k =>
    refine ⟨k, rfl, ?_⟩
    rintro rfl
    simp [Versioned.visible, tx] at hidden

/-- An insertion of a user waits only for another transaction's user. -/
theorem canRun_insertUser (email : String) (passwordHash : Option String) :
    CanRun P i (.insertUser email passwordHash) w ∨
      ∃ v ∈ w.users.rows, ∃ k, v.tx = some k ∧ k ≠ i := by
  obtain ⟨draw, fresh⟩ := exists_drawFresh w
  cases inserted : World.insertVersioned w.users i ⟨draw, email, passwordHash, none, none, w.now⟩ with
  | none =>
    obtain ⟨v, member, hidden, -⟩ := insertVersioned_none inserted
    obtain ⟨k, tx, other⟩ := Versioned.holder_of_hidden hidden
    exact .inr ⟨v, member, k, tx, other⟩
  | some outcome =>
    refine .inl ⟨{ draw := draw }, ?_⟩
    cases outcome with
    | error e =>
      refine ⟨.error e, { w with drawn := draw :: w.drawn }, rfl, ?_⟩
      simp only [exec, Option.isSome_none, Bool.false_eq_true, ↓reduceIte, fresh, inserted]
    | ok users =>
      refine ⟨.ok ⟨draw, email, passwordHash, none, none, w.now⟩,
        { w with drawn := draw :: w.drawn, users := users }, rfl, ?_⟩
      simp only [exec, Option.isSome_none, Bool.false_eq_true, ↓reduceIte, fresh, inserted]

/-- An insertion of an account waits only for another transaction's account. -/
theorem canRun_saveProviderAccount (providerUserId userId : String) :
    CanRun P i (.saveProviderAccount providerUserId userId) w ∨
      ∃ v ∈ w.providerAccounts.rows, ∃ k, v.tx = some k ∧ k ≠ i := by
  obtain ⟨draw, fresh⟩ := exists_drawFresh w
  cases inserted : World.insertVersioned w.providerAccounts i ⟨draw, providerUserId, userId⟩ with
  | none =>
    obtain ⟨v, member, hidden, -⟩ := insertVersioned_none inserted
    obtain ⟨k, tx, other⟩ := Versioned.holder_of_hidden hidden
    exact .inr ⟨v, member, k, tx, other⟩
  | some outcome =>
    refine .inl ⟨{ draw := draw }, ?_⟩
    cases outcome with
    | error e =>
      refine ⟨.error e, { w with drawn := draw :: w.drawn }, rfl, ?_⟩
      simp only [exec, Option.isSome_none, Bool.false_eq_true, ↓reduceIte, fresh, inserted]
    | ok accounts =>
      refine ⟨.ok ⟨draw, providerUserId, userId⟩,
        { w with drawn := draw :: w.drawn, providerAccounts := accounts }, rfl, ?_⟩
      simp only [exec, Option.isSome_none, Bool.false_eq_true, ↓reduceIte, fresh, inserted]

/-- The commands of accounts that wait for nobody. -/
def Cmd.waits : Cmd → Bool
  | .insertUser _ _ | .saveProviderAccount _ _ => true
  | _ => false

theorem canRun_of_allowed {r : Req} {s : Progress} {c : Cmd}
    (sender : r = .findOrCreateFromProvider identity ∨
      ∃ password, r = .register identity.email password)
    (allowed : Allowed P r s c) (free : c.waits = false) : CanRun P i c w := by
  cases allowed with
  | decoyId =>
    obtain ⟨draw, fresh⟩ := exists_drawFresh w
    refine ⟨{ draw := draw }, .ok draw, { w with drawn := draw :: w.drawn }, rfl, ?_⟩
    simp only [exec, fresh]
  | register | create | link => cases free
  | issue => rcases sender with same | ⟨password, same⟩ <;> cases same
  | elsewhere other => rcases sender with rfl | ⟨password, rfl⟩ <;> cases other
  | _ =>
    refine ⟨{}, ?_⟩
    simp [exec]

/-- A thread whose transaction is open has a command to run. -/
theorem Race.awaiting (race : Race identity cfg.shared) (holds : (accounts P).Holds G cfg)
    (isOpen : (progress (cfg.shared.own i)).stage.isOpen = true) :
    ∃ cmd, cfg.Awaits i cmd := by
  cases own : cfg.shared.own i with
  | nil =>
    rw [own] at isOpen
    cases isOpen
  | cons e es =>
    have member : e ∈ cfg.shared.own i := by
      rw [own]
      exact List.mem_cons_self
    obtain ⟨entry, logged, rfl, -⟩ := Shared.mem_log_of_mem_own member
    obtain ⟨⟨r, p⟩, thread⟩ : ∃ t, cfg.threads[entry.thread]? = some t :=
      ⟨_, List.getElem?_eq_getElem (holds.logged entry logged)⟩
    -- a request that has ended has no transaction open
    have closed : ∀ res, (∃ σ, (accounts P).Rely entry.thread σ cfg.shared ∧
        (accounts P).Post entry.thread r res σ) → False := by
      rintro res ⟨σ, rely, was, ends⟩
      have same : cfg.shared.own entry.thread = σ.own entry.thread := rely
      rw [same] at isOpen
      rw [← same] at was
      have ended : ∀ stage, (progress (σ.own entry.thread)).stage = stage →
          stage.isOpen = false → False := by
        rintro stage rfl shut
        rw [shut] at isOpen
        cases isOpen
      rcases race.asked _ r was with rfl | ⟨password, rfl⟩
      · cases res with
        | ok a =>
          obtain ⟨user, stage, -⟩ := ends
          exact ended _ stage rfl
        | error e => exact ended _ ends rfl
      · cases res with
        | ok a =>
          rcases ends with ⟨user, at_, -⟩ | at_
          · exact ended _ (congrArg Progress.stage at_) rfl
          · exact ended _ (congrArg Progress.stage at_) rfl
        | error e => exact ended _ ends rfl
    cases p with
    | await cmd k => exact ⟨cmd, r, k, thread⟩
    | done a => exact (closed _ (holds.post_ok thread)).elim
    | fail e => exact (closed _ (holds.post_error thread)).elim

/-- Where not every request has ended, some thread can run its next command: a sign-in that has
saved its account waits for nobody, one that saves waits for such a one only, and one that
inserts a user waits for an open transaction, which inserts none. -/
theorem Race.live (race : Race identity cfg.shared) (holds : (accounts P).Holds G cfg)
    (running : ¬cfg.Quiescent) :
    ∃ i cmd, cfg.Awaits i cmd ∧ CanRun P i cmd cfg.shared.world := by
  -- the chain of waiting has two links at most: user insertion, account insertion, commit
  have runs : ∀ {i} {cmd : Cmd}, cfg.Awaits i cmd → cmd.waits = false →
      CanRun P i cmd cfg.shared.world := by
    intro i cmd awaits free
    obtain ⟨r, was, allowed⟩ := holds.pre awaits
    exact canRun_of_allowed (race.asked i r was) allowed free
  have saves : ∀ {i} {cmd : Cmd}, cfg.Awaits i cmd →
      (∀ email passwordHash, cmd ≠ .insertUser email passwordHash) →
      ∃ i cmd, cfg.Awaits i cmd ∧ CanRun P i cmd cfg.shared.world := by
    intro i cmd awaits noUser
    cases waits : cmd.waits with
    | false => exact ⟨i, cmd, awaits, runs awaits waits⟩
    | true =>
      cases cmd with
      | insertUser email passwordHash => exact absurd rfl (noUser email passwordHash)
      | saveProviderAccount providerUserId userId =>
        rcases canRun_saveProviderAccount providerUserId userId with can |
          ⟨v, member, holder, tx, -⟩
        · exact ⟨i, _, awaits, can⟩
        · -- the holder has saved its account and commits next
          obtain ⟨user, stage, -⟩ := race.openAccounts v member holder tx
          obtain ⟨cmd', awaits'⟩ := race.awaiting holds (i := holder) (by rw [stage]; rfl)
          obtain rfl := race.commits (holds.pre awaits') stage
          exact ⟨holder, _, awaits', runs awaits' rfl⟩
      | _ => cases waits
  obtain ⟨i, cmd, awaits⟩ := cfg.exists_awaits running
  cases cmd with
  | insertUser email passwordHash =>
    rcases canRun_insertUser email passwordHash with can | ⟨v, member, holder, tx, -⟩
    · exact ⟨i, _, awaits, can⟩
    · have isOpen := race.openUsers v member holder tx
      obtain ⟨cmd', awaits'⟩ := race.awaiting holds isOpen
      refine saves awaits' fun email' passwordHash' same => ?_
      subst same
      obtain ⟨r, -, allowed⟩ := holds.pre awaits'
      generalize progress (cfg.shared.own holder) = s at isOpen allowed
      cases allowed with
      | register | create => cases isOpen
      | issue reads | elsewhere _ reads => cases reads
  | _ => exact saves awaits (by simp)

end Waiting

/-! ### Runs -/

/-- A sign-in that was answered was answered with the committed user of the email. -/
theorem Race.answered {G : Guard (mikrouli P)} {c : Config (mikrouli P)}
    (race : Race identity c.shared) (holds : (accounts P).Holds G c) {i : Nat} {a : Ans}
    (answered : c.Answered i (.findOrCreateFromProvider identity) a) :
    ∃ user : User, a = .account user ∧ ⟨user, none⟩ ∈ c.shared.world.users.rows ∧
      user.email = identity.email ∧ c.shared.world.Linked identity := by
  obtain ⟨σ, rely, -, user, stage, rfl⟩ := holds.post_ok answered
  have own : c.shared.own i = σ.own i := rely
  rw [← own] at stage
  have grounded := holds.inv i
  have standing := race.standing i
  rw [stage] at grounded
  rw [Standing, stage] at standing
  exact ⟨user, rfl, grounded, standing.2.1, standing.2.2⟩

/-- Whatever the order of their steps, racing sign-ins and registrations can all be answered. -/
theorem racing_completes {w₀ : World} (unlinked : w₀.Unlinked identity)
    {c : Config (mikrouli P)} (reach : Reach (racing P identity) (initial w₀) c) :
    ∃ c', Reach (racing P identity) c c' ∧ c'.Quiescent := by
  have holds₀ : (accounts P).Holds (racing P identity) (initial w₀) := accounts_initial w₀
  have race : Race identity c.shared :=
    holds₀.invariant accounts_sound
      (fun _ _ rooted acts race => race.acts rooted (fun _ _ => id) acts) (.initial unlinked) reach
  refine exists_quiescent
    (I := fun c => (accounts P).Holds (racing P identity) c ∧ Race identity c.shared) ?_ ?_
    ⟨holds₀.reach accounts_sound reach, race⟩
  · rintro c c' ⟨holds, race⟩ step
    exact ⟨holds.step accounts_sound step, race.acts holds.inv (fun _ _ => id) (holds.acts step)⟩
  · rintro c ⟨holds, race⟩ running
    obtain ⟨i, cmd, awaits, ch, res, w, works, returned⟩ := race.live holds running
    exact ⟨i, cmd, ch, res, w, awaits, returned, works⟩

end Mikrouli
