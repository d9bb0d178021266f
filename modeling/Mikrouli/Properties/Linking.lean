import Mikrouli.Properties.Accounts
import Mikrouli.Properties.Sessions

/-! Who can log in by password to the account a GitHub sign-in resolves to. -/

namespace Mikrouli

open Async Store

variable {P : Platform}

/-! ### Where passwords come from -/

/-- Thread `k` was asked to register the user with the password it carries. -/
def Made (σ : Shared (mikrouli P)) (k : Nat) (user : User) (stage : Stage) : Prop :=
  ∃ password salt, asked (σ.own k) = some (.register user.email password) ∧
    user.passwordHash = some (P.bcryptHash password salt) ∧ progress (σ.own k) = ⟨false, stage⟩

/-- Users with the email that have a password come from registrations, and so do those that a
credential check has read. -/
structure Origins (email : String) (σ : Shared (mikrouli P)) : Prop where
  rows : ∀ v ∈ σ.world.users.rows, v.row.email = email → v.row.passwordHash ≠ none →
    ∃ k, (v.tx = some k ∧ Made σ k v.row (.created v.row)) ∨
      (v.tx = none ∧ Made σ k v.row (.registered v.row))
  reads : ∀ i password user, asked (σ.own i) = some (.validateCredentials email password) →
    .call (.findUserByEmail email) (.ok (some user)) ∈ σ.own i →
    user.email = email ∧ (user.passwordHash ≠ none → ∃ k, Made σ k user (.registered user))

section Origins

variable {G : Guard (mikrouli P)} {σ σ' : Shared (mikrouli P)} {i k : Nat} {c : Cmd} {ch : Choice}
  {w : World} {res : Except AppError c.Res} {user : User} {stage : Stage} {email : String}

theorem Made.started {n : Nat} {r : Req} (fresh : σ.own n = []) (made : Made σ k user stage) :
    Made (σ.started n r) k user stage := by
  obtain ⟨password, salt, was, hash, there⟩ := made
  have other : k ≠ n := by
    rintro rfl
    rw [fresh] at was
    cases was
  refine ⟨password, salt, ?_, hash, ?_⟩
  · rw [Shared.started_own_of_ne other]
    exact was
  · rw [Shared.started_own_of_ne other]
    exact there

theorem Made.called_other (other : k ≠ i) (made : Made σ k user stage) :
    Made (σ.called i c res w) k user stage := by
  obtain ⟨password, salt, was, hash, there⟩ := made
  refine ⟨password, salt, ?_, hash, ?_⟩
  · rw [Shared.called_own_of_ne other]
    exact was
  · rw [Shared.called_own_of_ne other]
    exact there

/-- A registration that has inserted its user commits next. -/
theorem Made.commits (pre : (accounts P).Pre i c σ) (made : Made σ i user (.created user)) :
    c = .commit := by
  obtain ⟨r, was, allowed⟩ := pre
  obtain ⟨password, salt, was', -, there⟩ := made
  rw [was] at was'
  cases was'
  rw [there] at allowed
  cases allowed with
  | keep => rfl
  | reread signsIn => cases signsIn
  | elsewhere other => cases other

/-- A registration that has committed its user is over. -/
theorem Made.over (pre : (accounts P).Pre i c σ) : ¬Made σ i user (.registered user) := by
  rintro ⟨password, salt, was, -, there⟩
  obtain ⟨r, was', allowed⟩ := pre
  rw [was] at was'
  cases was'
  rw [there] at allowed
  cases allowed with
  | elsewhere other => cases other

theorem Made.registered_called (pre : (accounts P).Pre i c σ)
    (made : Made σ k user (.registered user)) :
    Made (σ.called i c res w) k user (.registered user) := by
  by_cases same : k = i
  · subst same
    exact absurd made (Made.over pre)
  · exact made.called_other same

/-- The rows that a command leaves alone keep their origins, unless it ends their transaction. -/
theorem Origins.row_called (origins : Origins email σ) (pre : (accounts P).Pre i c σ)
    {v : Versioned User} (member : v ∈ σ.world.users.rows) (same : v.row.email = email)
    (password : v.row.passwordHash ≠ none) (open_ : c = .commit → v.tx ≠ some i) :
    ∃ k, (v.tx = some k ∧ Made (σ.called i c res w) k v.row (.created v.row)) ∨
      (v.tx = none ∧ Made (σ.called i c res w) k v.row (.registered v.row)) := by
  obtain ⟨k, ⟨tx, made⟩ | ⟨tx, made⟩⟩ := origins.rows v member same password
  · have other : k ≠ i := by
      rintro rfl
      exact open_ (made.commits pre) tx
    exact ⟨k, .inl ⟨tx, made.called_other other⟩⟩
  · exact ⟨k, .inr ⟨tx, made.registered_called pre⟩⟩

theorem Origins.called (origins : Origins email σ) (pre : (accounts P).Pre i c σ)
    (returned : exec P i c ch σ.world = some (res, w)) : Origins email (σ.called i c res w) := by
  constructor
  case rows =>
    intro v member same password
    rw [Shared.called_world] at member
    cases c with
    | commit =>
      rcases exec_commit returned with ⟨-, -, rfl⟩ | ⟨-, rfl, rfl⟩
      · obtain ⟨before, other⟩ := mem_users_rollback.mp member
        exact origins.row_called pre before same password fun _ => other
      · obtain ⟨v', before, rfl⟩ := mem_users_commit.mp member
        rw [World.commitRows_row] at same password ⊢
        by_cases own : v'.tx = some i
        · -- the registration keeps its user
          obtain ⟨k, ⟨tx, made⟩ | ⟨tx, -⟩⟩ := origins.rows v' before same password
          · rw [own] at tx
            cases tx
            obtain ⟨password, salt, was, hash, there⟩ := made
            refine ⟨i, .inr ⟨by simp [World.commitRows, own], password, salt, ?_, hash, ?_⟩⟩
            · rw [Shared.called_own_self]
              exact was
            · rw [Shared.called_own_self, progress, there]
              rfl
          · rw [own] at tx
            cases tx
        · rw [commitRows_of_ne own]
          exact origins.row_called pre before same password fun _ => own
    | rollback =>
      obtain ⟨rfl, -⟩ := exec_rollback returned
      obtain ⟨before, other⟩ := mem_users_rollback.mp member
      exact origins.row_called pre before same password fun _ => other
    | insertUser email' passwordHash =>
      have open_ : ∀ v : Versioned User, Cmd.insertUser email' passwordHash = .commit →
          v.tx ≠ some i := fun v impossible => by cases impossible
      obtain ⟨-, ⟨-, -, rfl⟩ | ⟨-, -, ⟨-, users, -⟩ | ⟨user, row, rfl, rows⟩⟩⟩ :=
        exec_insertUser returned
      · exact origins.row_called pre member same password (open_ v)
      · rw [users] at member
        exact origins.row_called pre member same password (open_ v)
      · rw [rows] at member
        rcases List.mem_cons.mp member with rfl | before
        · obtain ⟨r, was, allowed⟩ := pre
          subst row
          generalize at_ : progress (σ.own i) = s at allowed
          cases allowed with
          | register salt =>
            refine ⟨i, .inl ⟨rfl, _, salt, ?_, rfl, ?_⟩⟩
            · rw [Shared.called_own_self]
              exact was
            · rw [Shared.called_own_self, progress, at_]
              rfl
          | create => exact absurd rfl password
          | issue reads => cases reads
          | elsewhere other reads => cases reads
        · exact origins.row_called pre before same password (open_ v)
    | saveProviderAccount providerUserId userId =>
      rw [(exec_saveProviderAccount returned).1] at member
      exact origins.row_called pre member same password fun impossible => by cases impossible
    | _ =>
      rw [(exec_frame returned).users rfl] at member
      exact origins.row_called pre member same password fun impossible => by cases impossible
  case reads =>
    intro j password user was read
    have keeps : user.email = email ∧
        (user.passwordHash ≠ none → ∃ k, Made σ k user (.registered user)) →
        user.email = email ∧ (user.passwordHash ≠ none →
          ∃ k, Made (σ.called i c res w) k user (.registered user)) := by
      rintro ⟨same, origin⟩
      refine ⟨same, fun password => ?_⟩
      obtain ⟨k, made⟩ := origin password
      exact ⟨k, made.registered_called pre⟩
    by_cases self : j = i
    · subst self
      rw [Shared.called_own_self] at was read
      rw [asked_call] at was
      rcases List.mem_cons.mp read with now | before
      · -- what a read sees is committed, as the thread inserts nothing
        cases now
        obtain ⟨-, ⟨-, failed⟩ | found⟩ := exec_findUserByEmail returned
        · cases failed
        · obtain ⟨v, member, rfl, seen, same⟩ := World.userByEmail_eq_some (Except.ok.inj found).symm
          refine keeps ⟨same, fun password => ?_⟩
          obtain ⟨k, ⟨tx, made⟩ | ⟨-, made⟩⟩ := origins.rows v member same password
          · rcases Versioned.visible_eq_true.mp seen with none | own
            · rw [none] at tx
              cases tx
            · rw [own] at tx
              cases tx
              obtain ⟨_, _, asked', -⟩ := made
              rw [was] at asked'
              cases asked'
          · exact ⟨k, made⟩
      · exact keeps (origins.reads j password user was before)
    · rw [Shared.called_own_of_ne self] at was read
      exact keeps (origins.reads j password user was read)

theorem Origins.acts (origins : Origins email σ) (acts : (accounts P).Acts G σ σ') :
    Origins email σ' := by
  cases acts with
  | start n r fresh allowed =>
    constructor
    · intro v member same password
      obtain ⟨k, origin⟩ := origins.rows v member same password
      exact ⟨k, origin.imp (.imp_right (.started fresh)) (.imp_right (.started fresh))⟩
    · intro j password user was read
      have other : j ≠ n := by
        rintro rfl
        rw [Shared.started_own_self, fresh] at read
        cases read with
        | tail _ nothing => cases nothing
      rw [Shared.started_own_of_ne other] at was read
      obtain ⟨same, origin⟩ := origins.reads j password user was read
      refine ⟨same, fun password => ?_⟩
      obtain ⟨k, made⟩ := origin password
      exact ⟨k, made.started fresh⟩
  | call pre returned allowed => exact origins.called pre returned
  | env ms allowed => exact ⟨origins.rows, origins.reads⟩

theorem Origins.initial {w₀ : World} (unused : ∀ v ∈ w₀.users.rows, v.row.email ≠ email) :
    Origins (P := P) email ⟨w₀, []⟩ :=
  ⟨fun v member same => absurd same (unused v member), fun i password user was => by cases was⟩

/-- A registration that has committed its user has answered with it. -/
theorem answered_of_made {cfg : Config (mikrouli P)} (holds : (accounts P).Holds G cfg)
    (made : Made cfg.shared k user (.registered user)) :
    ∃ password salt, user.passwordHash = some (P.bcryptHash password salt) ∧
      cfg.Answered k (.register user.email password)
        (.registered ⟨user.id, user.email, user.createdAt⟩) := by
  obtain ⟨password, salt, was, hash, there⟩ := id made
  obtain ⟨e, member, -⟩ := List.exists_of_findSome?_eq_some was
  obtain ⟨entry, logged, rfl, -⟩ := Shared.mem_log_of_mem_own member
  obtain ⟨⟨r, p⟩, thread⟩ : ∃ t, cfg.threads[entry.thread]? = some t :=
    ⟨_, List.getElem?_eq_getElem (holds.logged entry logged)⟩
  cases p with
  | await cmd rest =>
    -- a committed registration issues nothing
    exact absurd made (Made.over (holds.pre ⟨_, _, thread⟩))
  | fail e =>
    obtain ⟨σ, rely, was', ends⟩ := holds.post_error thread
    have same : cfg.shared.own entry.thread = σ.own entry.thread := rely
    rw [← same, was] at was'
    cases was'
    rw [← same] at ends
    have stage : (progress (cfg.shared.own entry.thread)).stage = .gaveUp := ends
    rw [there] at stage
    cases stage
  | done a =>
    obtain ⟨σ, rely, was', ends⟩ := holds.post_ok thread
    have same : cfg.shared.own entry.thread = σ.own entry.thread := rely
    rw [← same, was] at was'
    cases was'
    rw [← same] at ends
    refine ⟨password, salt, hash, ?_⟩
    rcases ends with ⟨row, at_, rfl⟩ | decoy
    · rw [there] at at_
      cases at_
      exact thread
    · rw [there] at decoy
      cases decoy

/-- A sign-in has answered with a committed user. -/
theorem committed_of_signedIn {cfg : Config (mikrouli P)} (holds : (accounts P).Holds G cfg)
    {identity : GithubIdentity} {account : User}
    (signedIn : cfg.Answered i (.findOrCreateFromProvider identity) (.account account)) :
    ⟨account, none⟩ ∈ cfg.shared.world.users.rows := by
  obtain ⟨σ, rely, -, user, stage, same⟩ := holds.post_ok signedIn
  cases same
  have own : cfg.shared.own i = σ.own i := rely
  have grounded := holds.inv i
  rw [own, stage] at grounded
  exact grounded

/-- Committed users stay. -/
theorem committed_acts (acts : (accounts P).Acts G σ σ') {v : Versioned User}
    (committed : v.tx = none) (member : v ∈ σ.world.users.rows) : v ∈ σ'.world.users.rows := by
  cases acts with
  | start n r fresh allowed => exact member
  | call pre returned allowed => exact users_kept returned member (by simp [committed])
  | env ms allowed => exact member

end Origins

/-! ### Logging in to a linked account -/

/-- Once the holder of a GitHub identity has signed in, a password opens the account only to a
party whose own registration had been answered with that account before. -/
theorem password_login_needs_registration
    (bcrypt : ∀ password stored salt, P.bcryptCompare password (P.bcryptHash stored salt) = true →
      bcryptInput stored = bcryptInput password)
    {w₀ : World} {email : String} (unused : ∀ v ∈ w₀.users.rows, v.row.email ≠ email)
    {c : Config (mikrouli P)} (reach : Reach anyStep (initial w₀) c) {holder : Nat}
    {identity : GithubIdentity} {account : User}
    (signedIn : c.Answered holder (.findOrCreateFromProvider identity) (.account account))
    {party : Nat → Prop} {password : String}
    (secret : ∀ k stored, c.Asked k (.register email stored) →
      bcryptInput stored = bcryptInput password → party k)
    {c' : Config (mikrouli P)}
    (later : Reach anyStep (c.arrive (.validateCredentials email password)) c') {user : User}
    (obtained : c'.Answered c.threads.length (.validateCredentials email password)
      (.validated (some user)))
    (same : user.id = account.id) :
    ∃ k stored, party k ∧ bcryptInput stored = bcryptInput password ∧
      c.Answered k (.register email stored)
        (.registered ⟨account.id, email, account.createdAt⟩) := by
  have holds₀ : (accounts P).Holds anyStep (initial w₀) := accounts_initial w₀
  have holds := holds₀.reach accounts_sound reach
  have arrives : Step anyStep c (c.arrive (.validateCredentials email password)) :=
    .start _ trivial
  have whole := (reach.tail arrives).trans later
  have holds' := holds₀.reach accounts_sound whole
  have origins : ∀ {c₁}, Reach anyStep (initial w₀) c₁ → Origins email c₁.shared := fun run =>
    holds₀.invariant accounts_sound (fun _ _ _ acts origins => origins.acts acts)
      (.initial unused) run
  -- the answer comes from a committed registration
  obtain ⟨σ, rely, was, read, passwordHash, stored, matched⟩ := holds'.post_ok obtained
  have own : c'.shared.own c.threads.length = σ.own c.threads.length := rely
  rw [← own] at was read
  obtain ⟨rfl, origin⟩ := (origins whole).reads _ password user was read
  obtain ⟨k', made'⟩ := origin (by simp [stored])
  have registered : ⟨user, none⟩ ∈ c'.shared.world.users.rows := by
    have grounded := holds'.inv k'
    obtain ⟨-, -, -, -, there⟩ := made'
    rw [there] at grounded
    exact grounded
  -- it is the row that the sign-in resolved to, which was there before
  have linked := committed_of_signedIn holds signedIn
  have stays : ⟨account, none⟩ ∈ c'.shared.world.users.rows :=
    holds.invariant accounts_sound
      (fun _ _ _ acts member => committed_acts acts rfl member) linked (.head arrives later)
  have row := Store.Table.eq_of_key (k := fun v : Versioned User => v.row.id) (by simp)
    registered stays same
  cases row
  obtain ⟨k, ⟨tx, -⟩ | ⟨-, made⟩⟩ := (origins reach).rows _ linked rfl (by simp [stored])
  · cases tx
  · obtain ⟨registeredWith, salt, hash, answered⟩ := answered_of_made holds made
    rw [stored] at hash
    cases hash
    have input := bcrypt _ _ _ matched
    exact ⟨k, registeredWith, secret k _ ⟨_, answered⟩ input, input, answered⟩

/-! ### Concrete runs -/

def identity : GithubIdentity := ⟨"g", "u@ab.cd"⟩

/-- The email is registered before its holder signs in with GitHub. -/
def registeredFirst : List (Move (mikrouli Platform.plain)) :=
  [.start (.register "u@ab.cd" "p"), .run 0 { draw := "salt" }, .run 0 { draw := "u" }, .run 0 {},
   .start (.findOrCreateFromProvider identity), .run 1 {}, .run 1 {}, .run 1 { draw := "a" },
   .run 1 {}]

/-- The user of the registration, as the table holds it. -/
def registeredUser : User :=
  ⟨"u", "u@ab.cd", some (Platform.plain.bcryptHash "p" "salt"), none, none, 5000⟩

/-- The request at a position of a run is the one asked there. -/
theorem request_eq {c : Config (mikrouli P)} {rs : List Req} {k : Nat} {r : Req}
    (asked : c.threads.map Prod.fst = rs) (request : c.Asked k r) : rs[k]? = some r := by
  obtain ⟨p, thread⟩ := request
  rw [← asked, List.getElem?_map, thread]
  rfl

/-- Both then have the account. -/
theorem exists_registeredFirst :
    ∃ c c' : Config (mikrouli Platform.plain), Reach anyStep (initial (World.empty 5000)) c ∧
      c.Answered 1 (.findOrCreateFromProvider identity) (.account registeredUser) ∧
      c.threads.map Prod.fst = [.register "u@ab.cd" "p", .findOrCreateFromProvider identity] ∧
      Reach anyStep (c.arrive (.validateCredentials "u@ab.cd" "p")) c' ∧
      c'.Answered c.threads.length (.validateCredentials "u@ab.cd" "p")
        (.validated (some registeredUser)) := by
  obtain ⟨c, reach, passed⟩ := exists_reach_of_play anyStep_of_anyReady
    (initial (V := mikrouli Platform.plain) (World.empty 5000)) registeredFirst
    (fun c => decide (c.answer? 1 = some (.findOrCreateFromProvider identity,
        .account registeredUser)) &&
      decide (c.threads.map Prod.fst =
        [.register "u@ab.cd" "p", .findOrCreateFromProvider identity]) &&
      ((c.arrive (.validateCredentials "u@ab.cd" "p")).play anyReady
        [.run c.threads.length {}]).any fun c' : Config (mikrouli Platform.plain) =>
          decide (c'.answer? c.threads.length = some (.validateCredentials "u@ab.cd" "p",
            .validated (some registeredUser)))) (by decide +kernel)
  simp only [Bool.and_eq_true, decide_eq_true_eq] at passed
  obtain ⟨⟨signedIn, asked⟩, again⟩ := passed
  obtain ⟨c', later, obtained⟩ := exists_reach_of_play anyStep_of_anyReady _ _ _ again
  exact ⟨c, c', reach, answered_of_answer? signedIn, asked, later,
    answered_of_answer? (of_decide_eq_true obtained)⟩

/-- In that run only the registrant registered the email. -/
theorem registrant_of_asked {c : Config (mikrouli P)} {email password stored : String}
    {identity : GithubIdentity} {k : Nat}
    (asked : c.threads.map Prod.fst = [.register email password, .findOrCreateFromProvider identity])
    (request : c.Asked k (.register email stored)) : k = 0 := by
  have at_ := request_eq asked request
  match k, at_ with
  | 0, _ => rfl
  | 1, at_ => cases at_

theorem password_login_needs_registration_registrant :
    ∃ c : Config (mikrouli Platform.plain), ∃ k stored, k = 0 ∧
      bcryptInput stored = bcryptInput "p" ∧
      c.Answered k (.register "u@ab.cd" stored) (.registered ⟨"u", "u@ab.cd", 5000⟩) := by
  obtain ⟨c, c', reach, signedIn, asked, later, obtained⟩ := exists_registeredFirst
  exact ⟨c, password_login_needs_registration Platform.plain_bcryptCompare (by simp [World.empty])
    reach signedIn (fun _ _ request _ => registrant_of_asked asked request) later obtained rfl⟩

/-- A party that registered the email first gets the account its holder signs in to. -/
theorem linked_account_shared_with_registrant :
    ¬∀ P : Platform, (∀ password stored salt,
        P.bcryptCompare password (P.bcryptHash stored salt) = true →
          bcryptInput stored = bcryptInput password) →
      ∀ (w₀ : World) (email : String), (∀ v ∈ w₀.users.rows, v.row.email ≠ email) →
      ∀ c : Config (mikrouli P), Reach anyStep (initial w₀) c →
      ∀ (holder : Nat) (identity : GithubIdentity) (account : User), identity.email = email →
        c.Answered holder (.findOrCreateFromProvider identity) (.account account) →
      ∀ (party : Nat → Prop) (password : String),
        (∀ k r, c.Asked k r → party k → ∃ stored, r = .register email stored) →
        (∀ k stored, c.Asked k (.register email stored) →
          bcryptInput stored = bcryptInput password → party k) →
      ∀ c', Reach anyStep (c.arrive (.validateCredentials email password)) c' →
      ∀ user : User, c'.Answered c.threads.length (.validateCredentials email password)
          (.validated (some user)) → user.id ≠ account.id := by
  intro safe
  obtain ⟨c, c', reach, signedIn, asked, later, obtained⟩ := exists_registeredFirst
  refine safe Platform.plain Platform.plain_bcryptCompare (World.empty 5000) "u@ab.cd"
    (by simp [World.empty]) c reach 1 identity registeredUser rfl signedIn (fun k => k = 0) "p"
    ?_ (fun _ _ request _ => registrant_of_asked asked request) c' later registeredUser obtained rfl
  rintro k r request rfl
  have at_ := request_eq asked request
  cases at_
  exact ⟨"p", rfl⟩

end Mikrouli
