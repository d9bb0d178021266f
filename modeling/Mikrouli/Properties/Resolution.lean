import Mikrouli.Properties.Alone
import Mikrouli.Properties.SignIn

/-! Account resolution on its own: what a GitHub identity resolves to in every reachable state,
and which states it is refused in. -/

namespace Mikrouli

open Async Store

/-! ### States -/

/-- Every provider account belongs to a user, as the foreign key says. -/
def World.Referential (w : World) : Prop :=
  ∀ v ∈ w.providerAccounts.rows, ∃ u ∈ w.users.rows, u.row.id = v.row.userId

/-- The user is linked to the identity. -/
def World.LinkedTo (identity : GithubIdentity) (user : User) (w : World) : Prop :=
  ⟨user, none⟩ ∈ w.users.rows ∧ ∃ account : ProviderAccount,
    ⟨account, none⟩ ∈ w.providerAccounts.rows ∧
      account.providerUserId = identity.providerUserId ∧ account.userId = user.id

/-- The identity is not linked, and the user with its email is linked to another one. -/
def World.Conflicts (identity : GithubIdentity) (w : World) : Prop :=
  (∀ v ∈ w.providerAccounts.rows, v.row.providerUserId ≠ identity.providerUserId) ∧
    ∃ u ∈ w.users.rows, u.row.email = identity.email ∧
      ∃ v ∈ w.providerAccounts.rows, v.row.userId = u.row.id

variable {P : Platform} {allowed : Choice → Prop} {i : Nat} {w w' : World}
  {identity : GithubIdentity} {us : List User} {as : List ProviderAccount}

theorem World.Referential.adds (referential : w.Referential) (adds : World.Adds none us as w w')
    (owned : ∀ account ∈ as, ∃ u ∈ w'.users.rows, u.row.id = account.userId) :
    w'.Referential := by
  intro v member
  rw [adds.accounts, List.mem_append, List.mem_map] at member
  rcases member with ⟨account, new, rfl⟩ | old
  · exact owned account new
  · obtain ⟨u, there, same⟩ := referential v old
    refine ⟨u, ?_, same⟩
    rw [adds.users]
    exact List.mem_append_right _ there

/-! ### Resolution -/

/-- What a resolution on its own can do. -/
inductive FindsOrCreates (allowed : Choice → Prop) (identity : GithubIdentity) (w : World) :
    Except AppError User → World → Prop
  | known {user : User} {w' : World} (work : MayWork allowed) (linked : w.LinkedTo identity user)
      (adds : World.Adds none [] [] w w') : FindsOrCreates allowed identity w (.ok user) w'
  | linked {user : User} {account : ProviderAccount} {w' : World} (work : MayWork allowed)
      (unlinked : ∀ v ∈ w.providerAccounts.rows, v.row.providerUserId ≠ identity.providerUserId)
      (row : ⟨user, none⟩ ∈ w.users.rows) (email : user.email = identity.email)
      (free : ∀ v ∈ w.providerAccounts.rows, v.row.userId ≠ user.id)
      (same : account.providerUserId = identity.providerUserId) (owner : account.userId = user.id)
      (drawn : account.id ∈ w'.drawn) (adds : World.Adds none [] [account] w w') :
      FindsOrCreates allowed identity w (.ok user) w'
  | created {user : User} {account : ProviderAccount} {w' : World} (work : MayWork allowed)
      (unlinked : ∀ v ∈ w.providerAccounts.rows, v.row.providerUserId ≠ identity.providerUserId)
      (unused : ∀ v ∈ w.users.rows, v.row.email ≠ identity.email)
      (email : user.email = identity.email) (hash : user.passwordHash = none)
      (fresh : user.id ∉ w.drawn)
      (same : account.providerUserId = identity.providerUserId) (owner : account.userId = user.id)
      (drawn : user.id ∈ w'.drawn ∧ account.id ∈ w'.drawn)
      (adds : World.Adds none [user] [account] w w') :
      FindsOrCreates allowed identity w (.ok user) w'
  | refused {w' : World} (work : MayWork allowed) (conflict : w.Conflicts identity)
      (adds : World.Adds none [] [] w w') :
      FindsOrCreates allowed identity w (.error .uniqueViolation) w'
  | failed {w' : World} (fail : MayFail allowed) (adds : World.Adds none [] [] w w') :
      FindsOrCreates allowed identity w (.error .queryFailed) w'

theorem FindsOrCreates.of_adds {w₁ : World} {r : Except AppError User} (quiet : World.Adds none [] [] w w₁)
    (resolves : FindsOrCreates allowed identity w₁ r w') : FindsOrCreates allowed identity w r w' := by
  have users : w₁.users.rows = w.users.rows := quiet.users
  have accounts : w₁.providerAccounts.rows = w.providerAccounts.rows := quiet.accounts
  cases resolves with
  | known work linked adds =>
    rw [World.LinkedTo, users, accounts] at linked
    exact .known work linked (by simpa using quiet.trans adds)
  | linked work unlinked row email free same owner drawn adds =>
    rw [accounts] at unlinked free
    rw [users] at row
    exact .linked work unlinked row email free same owner drawn (by simpa using quiet.trans adds)
  | created work unlinked unused email hash fresh same owner drawn adds =>
    rw [accounts] at unlinked
    rw [users] at unused
    exact .created work unlinked unused email hash (fun old => fresh (quiet.drawn old)) same owner
      drawn (by simpa using quiet.trans adds)
  | refused work conflict adds =>
    rw [World.Conflicts, users, accounts] at conflict
    exact .refused work conflict (by simpa using quiet.trans adds)
  | failed fail adds => exact .failed fail (by simpa using quiet.trans adds)

/-- One pass through the three branches, inside its transaction. -/
theorem alone_resolveProviderIdentity (settled : w.Settled) (referential : w.Referential) :
    Always (machine P) (alone P allowed) i (Inside allowed i w (FindsOrCreates allowed identity w))
      (resolveProviderIdentity identity) w := by
  have quiet : ∀ ms, World.Adds (some i) [] [] w (w.advance ms) :=
    fun ms => World.Adds.advance (.refl w) ms
  have fails : MayFail allowed → ∀ {us w₁}, World.Adds (some i) us [] w w₁ →
      Inside allowed i w (FindsOrCreates allowed identity w) (.error .queryFailed) w₁ :=
    fun fail us w₁ adds => ⟨us, [], adds, fun w₂ rolled => .failed fail rolled⟩
  apply Always.bind
  refine alone_findProviderAccount (fun fail ms => fails fail (quiet ms)) fun work ms => ?_
  cases found : w.providerAccount i identity.providerUserId with
  | some account =>
    -- a known identity: the foreign key says that its user is there
    obtain ⟨row, same⟩ := settled.providerAccount found
    apply Always.bind
    refine alone_findUserById (fun fail ms' => fails fail ((quiet ms).advance ms'))
      fun _ ms' => ?_
    cases owner : (w.advance ms).userById i account.userId with
    | some user =>
      obtain ⟨there, id⟩ := (settled.advance ms).userById owner
      refine ⟨[], [], (quiet ms).advance ms', fun w₂ _ adds => ?_, fun fail w₂ rolled => ?_⟩
      · exact .known work ⟨there, account, row, same, id.symm⟩ adds
      · exact .failed fail rolled
    | none =>
      obtain ⟨u, there, id⟩ := referential _ row
      exact absurd id ((settled.advance ms).userById_none owner u there)
  | none =>
    have unlinked := settled.providerAccount_none found
    apply Always.bind
    refine alone_findUserByEmail (fun fail ms' => fails fail ((quiet ms).advance ms'))
      fun _ ms' => ?_
    cases known : (w.advance ms).userByEmail i identity.email with
    | some user =>
      -- an account with the email: it gets the identity, unless it has one
      obtain ⟨row, email⟩ := (settled.advance ms).userByEmail.mp known
      apply Always.bind
      refine alone_saveProviderAccount settled ((quiet ms).advance ms') ?_ ?_ ?_
      · exact fun fail w₁ adds => fails fail adds
      · rintro work' ⟨v, member, clash⟩ w₁ adds
        refine ⟨[], [], adds, fun w₂ rolled => ?_⟩
        rcases clash with sameIdentity | sameUser
        · exact absurd sameIdentity (unlinked v member)
        · exact .refused work' ⟨unlinked, _, row, email, v, member, sameUser⟩ rolled
      · intro work' free account w₁ same owner drawn later adds
        refine ⟨[], [account], adds, fun w₂ later' kept => ?_, fun fail w₂ rolled => ?_⟩
        · exact .linked work' unlinked row email free same owner (later' drawn) kept
        · exact .failed fail rolled
    | none =>
      -- neither the identity nor the email is known: a user is made and read back
      have unused := (settled.advance ms).userByEmail_none.mp known
      apply Always.bind
      refine alone_insertUser settled ((quiet ms).advance ms') ?_ ?_ ?_
      · exact fun fail w₁ adds => fails fail adds
      · rintro _ ⟨v, member, same⟩
        exact absurd same (unused v member)
      intro _ _ user w₁ email hash fresh drawn adds
      have row : ⟨user, some i⟩ ∈ w₁.users.rows := by
        rw [adds.users]
        exact List.mem_cons_self
      apply Always.bind
      refine alone_findUserByEmail (fun fail ms'' => fails fail (adds.advance ms''))
        fun _ ms'' => ?_
      cases again : w₁.userByEmail i identity.email with
      | none =>
        exact absurd email (World.userByEmail_eq_none again _ row (by simp [Versioned.visible]))
      | some inserted =>
        -- the row read back is the one just inserted
        obtain rfl : inserted = user := by
          obtain ⟨v, member, rfl, -, same⟩ := World.userByEmail_eq_some again
          have one := Table.eq_of_key (t := w₁.users) (k := fun v => v.row.email) (by simp) member
            row (same.trans email.symm)
          rw [one]
        apply Always.bind
        refine alone_saveProviderAccount settled (adds.advance ms'') ?_ ?_ ?_
        · exact fun fail w₂ adds => fails fail adds
        · rintro _ ⟨v, member, clash⟩
          rcases clash with sameIdentity | sameUser
          · exact absurd sameIdentity (unlinked v member)
          -- no account refers to an id that was drawn only now
          · obtain ⟨u, there, id⟩ := referential v member
            exact absurd (sameUser ▸ id ▸ (settled.users u there).2) fresh
        · intro work' _ account w₂ same owner drawn' later adds'
          refine ⟨[inserted], [account], adds', fun w₃ later' kept => ?_, fun fail w₃ rolled => ?_⟩
          · exact .created work' unlinked unused email hash fresh same owner
              ⟨later' (later drawn), later' drawn'⟩ kept
          · exact .failed fail rolled

theorem alone_findOrCreateFromProvider (settled : w.Settled) (referential : w.Referential) :
    Always (machine P) (alone P allowed) i (FindsOrCreates allowed identity w)
      (UsersService.findOrCreateFromProvider identity) w := by
  apply Always.tryCatch
  refine (alone_transaction settled (alone_resolveProviderIdentity settled referential)).mono
    fun r w₁ resolves => ?_
  cases r with
  | ok user => exact resolves
  | error e =>
    cases resolves with
    | failed fail adds => exact .failed fail adds
    | refused work conflict adds =>
      -- a unique violation: the second pass starts from the same tables
      have settled₁ := settled.adds adds (by simp) (by simp)
      have referential₁ := referential.adds adds (by simp)
      simp only [isUniqueViolation, ↓reduceIte]
      exact (alone_transaction settled₁
        (alone_resolveProviderIdentity settled₁ referential₁)).mono
          fun r w₂ again => again.of_adds adds

/-! ### Reachable states -/

theorem FindsOrCreates.reaches {r : Except AppError User} (resolves : FindsOrCreates allowed identity w r w')
    (settled : w.Settled) (referential : w.Referential) : w'.Settled ∧ w'.Referential := by
  cases resolves with
  | known _ _ adds | refused _ _ adds | failed _ adds =>
    exact ⟨settled.adds adds (by simp) (by simp), referential.adds adds (by simp)⟩
  | @linked user account _ _ _ row _ _ _ owner drawn adds =>
    refine ⟨settled.adds adds (by simp) (by simpa using drawn), referential.adds adds ?_⟩
    have there : ⟨user, none⟩ ∈ w'.users.rows := by
      rw [adds.users]
      exact row
    intro account' member
    rw [List.mem_singleton] at member
    exact ⟨_, there, by rw [member, owner]⟩
  | @created user account _ _ _ _ _ _ _ _ owner drawn adds =>
    refine ⟨settled.adds adds (by simpa using drawn.1) (by simpa using drawn.2),
      referential.adds adds ?_⟩
    have there : ⟨user, none⟩ ∈ w'.users.rows := by
      rw [adds.users]
      exact List.mem_cons_self
    intro account' member
    rw [List.mem_singleton] at member
    exact ⟨_, there, by rw [member, owner]⟩

theorem Registers.reaches {email password : String} {r : Except AppError PublicUser}
    (registers : Registers P allowed email password w r w') (settled : w.Settled)
    (referential : w.Referential) : w'.Settled ∧ w'.Referential := by
  cases registers with
  | created _ _ _ _ _ drawn adds =>
    exact ⟨settled.adds adds (by simpa using drawn) (by simp), referential.adds adds (by simp)⟩
  | decoy _ _ _ _ adds | failed _ adds =>
    exact ⟨settled.adds adds (by simp) (by simp), referential.adds adds (by simp)⟩

/-- Registrations and sign-ins one after the other, any statement of which may fail. -/
def accountCalls (P : Platform) : Regime (mikrouli P) where
  toSetting := alone P fun _ => True
  idle w w' := ∃ ms, w' = w.advance ms
  next _ _ r := (∃ email password, r = .register email password) ∨
    ∃ identity, r = .findOrCreateFromProvider identity

theorem reachable_settled {now : Nat} {h : List (Served (mikrouli P))}
    (session : Session (accountCalls P) (World.empty now) h w) : w.Settled ∧ w.Referential := by
  refine session.invariant (fun _ (w : World) => w.Settled ∧ w.Referential) ?_ ?_ ?_
  · exact ⟨⟨by simp [World.empty], by simp [World.empty]⟩, by simp [World.Referential, World.empty]⟩
  · rintro _ w _ ⟨settled, referential⟩ ⟨ms, rfl⟩
    exact ⟨settled.advance ms, referential⟩
  · rintro h w r ⟨settled, referential⟩ (⟨email, password, rfl⟩ | ⟨identity, rfl⟩)
    · apply Always.map
      exact (alone_register settled).mono fun _ _ registers =>
        registers.reaches settled referential
    · apply Always.map
      exact (alone_findOrCreateFromProvider settled referential).mono fun _ _ resolves =>
        resolves.reaches settled referential

/-- No request touches a committed user. -/
theorem serve_user_kept {r : Req} {user : User} (member : ⟨user, none⟩ ∈ w.users.rows) :
    Always (machine P) (alone P allowed) i (fun _ w' => ⟨user, none⟩ ∈ w'.users.rows)
      (serve P r) w := by
  refine Always.of_only (serve_only P r) ?_ ?_ member
  · rintro w _ member ⟨ms, rfl⟩
    exact member
  · exact fun c ch w res w' _ member _ returned => users_kept returned member (by simp)

/-! ### Completion -/

/-- The accounts tables hold no uncommitted row of another transaction. -/
structure World.Clear (i : Nat) (w : World) : Prop where
  users : ∀ v ∈ w.users.rows, v.visible i = true
  accounts : ∀ v ∈ w.providerAccounts.rows, v.visible i = true

theorem World.Settled.clear (settled : w.Settled) : w.Clear i where
  users v member := by simp [Versioned.visible, (settled.users v member).1]
  accounts v member := by simp [Versioned.visible, (settled.accounts v member).1]

/-- The commands of an account resolution. -/
def Cmd.resolves : Cmd → Bool
  | .findProviderAccount _ | .findUserById _ | .findUserByEmail _ | .insertUser _ _
  | .saveProviderAccount _ _ | .commit | .rollback => true
  | _ => false

theorem visible_commitRows {V : Type} {v : Versioned V} (seen : v.visible i = true) :
    (World.commitRows i v).visible i = true := by
  unfold World.commitRows
  split
  · simp [Versioned.visible]
  · exact seen

theorem World.Clear.exec {c : Cmd} {ch : Choice} {res : Except AppError c.Res}
    (clear : w.Clear i) (resolves : c.resolves = true)
    (returned : exec P i c ch w = some (res, w')) : w'.Clear i := by
  cases c with
  | insertUser email passwordHash =>
    obtain ⟨accounts, outcome⟩ := exec_insertUser returned
    refine ⟨?_, accounts ▸ clear.accounts⟩
    rcases outcome with ⟨-, -, rfl⟩ | ⟨-, -, ⟨-, users, -⟩ | ⟨user, -, -, users⟩⟩
    · exact clear.users
    · exact users ▸ clear.users
    · rw [users, List.forall_mem_cons]
      exact ⟨by simp [Versioned.visible], clear.users⟩
  | saveProviderAccount providerUserId userId =>
    obtain ⟨users, outcome⟩ := exec_saveProviderAccount returned
    refine ⟨users ▸ clear.users, ?_⟩
    rcases outcome with ⟨-, -, rfl⟩ | ⟨-, -, ⟨-, accounts, -⟩ | ⟨account, -, -, accounts⟩⟩
    · exact clear.accounts
    · exact accounts ▸ clear.accounts
    · rw [accounts, List.forall_mem_cons]
      exact ⟨by simp [Versioned.visible], clear.accounts⟩
  | commit =>
    rcases exec_commit returned with ⟨-, -, rfl⟩ | ⟨-, -, rfl⟩
    · constructor
      · exact fun v member => clear.users v (mem_users_rollback.mp member).1
      · exact fun v member => clear.accounts v (mem_providerAccounts_rollback.mp member).1
    · constructor
      · intro v member
        obtain ⟨v', old, rfl⟩ := mem_users_commit.mp member
        exact visible_commitRows (clear.users v' old)
      · intro v member
        obtain ⟨v', old, rfl⟩ := mem_providerAccounts_commit.mp member
        exact visible_commitRows (clear.accounts v' old)
  | rollback =>
    obtain ⟨rfl, -⟩ := exec_rollback returned
    constructor
    · exact fun v member => clear.users v (mem_users_rollback.mp member).1
    · exact fun v member => clear.accounts v (mem_providerAccounts_rollback.mp member).1
  | findProviderAccount | findUserById | findUserByEmail =>
    have frame := exec_frame returned
    exact ⟨frame.users rfl ▸ clear.users, frame.providerAccounts rfl ▸ clear.accounts⟩
  | _ => cases resolves

theorem canRun_of_clear {c : Cmd} (clear : w.Clear i) (resolves : c.resolves = true) :
    CanRun P i c w := by
  cases c with
  | insertUser email passwordHash =>
    -- only an uncommitted row of another transaction makes an insertion wait
    refine (canRun_insertUser email passwordHash).resolve_right ?_
    rintro ⟨v, member, k, tx, other⟩
    have seen := Versioned.visible_eq_true.mp (clear.users v member)
    simp_all
  | saveProviderAccount providerUserId userId =>
    refine (canRun_saveProviderAccount providerUserId userId).resolve_right ?_
    rintro ⟨v, member, k, tx, other⟩
    have seen := Versioned.visible_eq_true.mp (clear.accounts v member)
    simp_all
  | commit | rollback | findProviderAccount | findUserById | findUserByEmail =>
    refine ⟨{}, ?_⟩
    simp [exec]
  | _ => cases resolves

/-- On its own and with the database at work, a program of these commands comes to an end. -/
theorem exists_run_of_resolves {α : Type} {p : Prog α} (settled : w.Settled)
    (only : Prog.Only (fun c : Cmd => c.resolves = true) p) :
    ∃ r w', Runs (machine P) (alone P fun ch => ch.fault = none) i p w r w' := by
  have clear : w.Clear i := settled.clear
  refine exists_runs only alone_still ?_ clear
  intro c w resolves clear
  obtain ⟨ch, res, w', works, returned⟩ := canRun_of_clear (P := P) clear resolves
  exact ⟨ch, res, w', works, returned, clear.exec resolves returned⟩

theorem exists_resolution (settled : w.Settled) :
    ∃ r w', Runs (machine P) (alone P fun ch => ch.fault = none) i
      (UsersService.findOrCreateFromProvider identity) w r w' := by
  have only : Prog.Only (fun c : Cmd => c.resolves = true)
      (UsersService.findOrCreateFromProvider identity) :=
    only_findOrCreateFromProvider rfl (fun _ => rfl) rfl (fun _ => rfl) rfl rfl rfl
  exact exists_run_of_resolves settled only

/-! ### Totality -/

theorem FindsOrCreates.linkedTo {user : User} (resolves : FindsOrCreates allowed identity w (.ok user) w') :
    w'.LinkedTo identity user := by
  have later : ∀ {account : ProviderAccount} {us}, World.Adds none us [account] w w' →
      ⟨account, none⟩ ∈ w'.providerAccounts.rows := by
    intro account us adds
    rw [adds.accounts]
    exact List.mem_cons_self
  cases resolves with
  | known _ linked adds =>
    rw [World.LinkedTo, adds.users, adds.accounts]
    exact linked
  | linked _ _ row _ _ same owner _ adds =>
    refine ⟨?_, _, later adds, same, owner⟩
    rw [adds.users]
    exact row
  | created _ _ _ _ _ _ same owner _ adds =>
    refine ⟨?_, _, later adds, same, owner⟩
    rw [adds.users]
    exact List.mem_cons_self

/-- With a conflict no branch is left but the refusal. -/
theorem FindsOrCreates.refused_of_conflicts {r : Except AppError User} (conflict : w.Conflicts identity)
    (resolves : FindsOrCreates (fun ch => ch.fault = none) identity w r w') :
    r = .error .uniqueViolation := by
  obtain ⟨unlinked, u, row, email, v, account, owner⟩ := conflict
  cases resolves with
  | known _ linked =>
    obtain ⟨-, account', there, same, -⟩ := linked
    exact absurd same (unlinked _ there)
  | linked _ _ row' email' free =>
    -- branch 2 would need the user with the email to be free of identities
    have one := Table.eq_of_key (t := w.users) (k := fun v => v.row.email) (by simp) row row'
      (email.trans email'.symm)
    subst one
    exact absurd owner (free v account)
  | created _ _ unused => exact absurd email (unused u row)
  | refused => rfl
  | failed fail =>
    obtain ⟨ch, works, fault⟩ := fail
    exact absurd works fault

instance : Decidable (w.Conflicts identity) :=
  inferInstanceAs (Decidable ((∀ v ∈ w.providerAccounts.rows, _) ∧ ∃ u ∈ w.users.rows, _ ∧
    ∃ v ∈ w.providerAccounts.rows, _))

def isAccountCall : Req → Bool
  | .register _ _ | .findOrCreateFromProvider _ => true
  | _ => false

theorem accountCalls_fair (line : Line (mikrouli Platform.plain)) :
    line.Fair (accountCalls Platform.plain) := by
  cases line with
  | serve r chs => exact fun _ _ _ _ => trivial
  | tick ms => exact fun w => ⟨ms, rfl⟩

/-- A session of account calls whose end passes a test. -/
theorem exists_accountCalls (lines : List (Line (mikrouli Platform.plain)))
    (test : World → Bool)
    (passed : ((recite (fun _ _ r => isAccountCall r) lines [] (World.empty 5000)).any
      fun x => test x.2) = true) :
    ∃ h w, Session (accountCalls Platform.plain) (World.empty 5000) h w ∧ test w = true := by
  refine exists_session_of_recite alone_still ?_ _ lines (fun line _ => accountCalls_fair line)
    (fun _ w => test w) passed
  intro h w r ready
  cases r with
  | register email password => exact .inl ⟨email, password, rfl⟩
  | findOrCreateFromProvider identity => exact .inr ⟨identity, rfl⟩
  | _ => cases ready

/-- A first sign-in with a GitHub identity. -/
def firstSignIn : List (Line (mikrouli Platform.plain)) :=
  [.serve (.findOrCreateFromProvider ⟨"g1", "u@ab.cd"⟩)
    [{}, {}, { draw := "user" }, {}, { draw := "account" }, {}]]

/-- In a reachable state a sign-in on its own returns a user that is linked to the identity
exactly if the identity is linked already or its email belongs to no account that is linked to
another identity; and whatever makes a sign-in fail, it leaves users and accounts as they were. -/
theorem resolution_total_iff {now : Nat} {h : List (Served (mikrouli P))}
    (session : Session (accountCalls P) (World.empty now) h w) (identity : GithubIdentity)
    (i : Nat) :
    (((∃ r w', Runs (machine P) (alone P fun ch => ch.fault = none) i
          (UsersService.findOrCreateFromProvider identity) w r w') ∧
        ∀ r w', Runs (machine P) (alone P fun ch => ch.fault = none) i
          (UsersService.findOrCreateFromProvider identity) w r w' →
          ∃ user, r = .ok user ∧ w'.LinkedTo identity user) ↔ ¬w.Conflicts identity) ∧
    ∀ e w', Runs (machine P) (alone P fun _ => True) i
      (UsersService.findOrCreateFromProvider identity) w (.error e) w' →
      w'.users = w.users ∧ w'.providerAccounts = w.providerAccounts := by
  obtain ⟨settled, referential⟩ := reachable_settled session
  refine ⟨⟨?_, ?_⟩, ?_⟩
  · rintro ⟨⟨r, w', run⟩, total⟩ conflict
    obtain ⟨user, rfl, -⟩ := total r w' run
    have resolves := (alone_findOrCreateFromProvider settled referential).runs run
    cases resolves.refused_of_conflicts conflict
  · intro free
    -- without a conflict neither pass is refused, and without an outage none fails
    refine ⟨exists_resolution settled, fun r w' run => ?_⟩
    have resolves := (alone_findOrCreateFromProvider settled referential).runs run
    cases r with
    | ok user => exact ⟨user, rfl, resolves.linkedTo⟩
    | error e =>
      cases resolves with
      | refused _ conflict => exact absurd conflict free
      | failed fail =>
        obtain ⟨ch, works, fault⟩ := fail
        exact absurd works fault
  · intro e w' run
    have resolves := (alone_findOrCreateFromProvider settled referential).runs run
    cases resolves with
    | refused _ _ adds | failed _ adds =>
      exact ⟨Table.eq_of_rows adds.users, Table.eq_of_rows adds.accounts⟩

theorem resolution_total_iff_again :
    ∃ h w, Session (accountCalls Platform.plain) (World.empty 5000) h w ∧
      w.users.rows.length = 1 ∧
      ∀ r w', Runs (machine Platform.plain) (alone Platform.plain fun ch => ch.fault = none) 7
        (UsersService.findOrCreateFromProvider ⟨"g1", "u@ab.cd"⟩) w r w' →
        ∃ user, r = .ok user ∧ w'.LinkedTo ⟨"g1", "u@ab.cd"⟩ user := by
  obtain ⟨h, w, session, shape⟩ := exists_accountCalls firstSignIn
    (fun w => decide (w.users.rows.length = 1 ∧ ¬w.Conflicts ⟨"g1", "u@ab.cd"⟩)) (by decide +kernel)
  obtain ⟨size, free⟩ := of_decide_eq_true shape
  exact ⟨h, w, session, size, ((resolution_total_iff session _ 7).1.mpr free).2⟩

/-- A GitHub email that moved to another GitHub account: the sign-in of the other account fails
on the unique constraint, both times. -/
theorem second_identity_refused :
    ¬∀ (now : Nat) (h : List (Served (mikrouli Platform.plain))) (w : World)
      (identity : GithubIdentity) (i : Nat),
      Session (accountCalls Platform.plain) (World.empty now) h w →
      ∀ r w', Runs (machine Platform.plain) (alone Platform.plain fun ch => ch.fault = none) i
        (UsersService.findOrCreateFromProvider identity) w r w' →
        r ≠ .error .uniqueViolation ∧ ∃ user, r = .ok user ∧ w'.LinkedTo identity user := by
  intro total
  obtain ⟨h, w, session, shape⟩ := exists_accountCalls firstSignIn
    (fun w => decide (w.Conflicts ⟨"g2", "u@ab.cd"⟩)) (by decide +kernel)
  have conflict : w.Conflicts ⟨"g2", "u@ab.cd"⟩ := of_decide_eq_true shape
  obtain ⟨settled, referential⟩ := reachable_settled session
  obtain ⟨r, w', run⟩ : ∃ r w', Runs (machine Platform.plain)
      (alone Platform.plain fun ch => ch.fault = none) 7
      (UsersService.findOrCreateFromProvider ⟨"g2", "u@ab.cd"⟩) w r w' := exists_resolution settled
  have resolves := (alone_findOrCreateFromProvider settled referential).runs run
  exact (total 5000 h w _ 7 session r w' run).1 (resolves.refused_of_conflicts conflict)

end Mikrouli
