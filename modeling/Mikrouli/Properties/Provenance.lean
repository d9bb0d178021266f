import Mikrouli.Properties.Mediation

/-! Where the identities of requests come from, over whole runs: a user is acted for once it has
been signed in, and whoever is signed in has a row that somebody made. -/

namespace Mikrouli

open Async Store

variable {D : Deployment}

/-- Nobody but the server signs tokens with its secrets. -/
def signsAlone (D : Deployment) : Guard (mikrouliHttp D) := fun σ a =>
  match a with
  | .call _ (.inl (.inl (.verify secret (.jwt t)))) _ => t.secret = secret → t ∈ σ.world.1.1.signed
  | _ => True

/-- The user held a token or an API key already. -/
def World.Introduced (w : World) (userId : String) : Prop :=
  (∃ t ∈ w.signed, t.payload.sub = userId) ∨ ∃ k ∈ w.apiKeys.rows, k.userId = userId

/-- The user was introduced when the run began, or some thread of it has signed the user in. -/
def Known (w₀ : World) (σ : Shared (mikrouliHttp D)) (userId : String) : Prop :=
  w₀.Introduced userId ∨ ∃ i, SignsIn (σ.own i) userId

/-- Whatever may come to identify a request stands for a user who is known. -/
structure Vouched (w₀ : World) (σ : Shared (mikrouliHttp D)) : Prop where
  signed : ∀ t ∈ σ.world.1.1.signed, Known w₀ σ t.payload.sub
  keys : ∀ k ∈ σ.world.1.1.apiKeys.rows, Known w₀ σ k.userId
  verified : ∀ i secret token payload, Did (σ.own i) (.verify secret token) payload →
    Known w₀ σ payload.sub
  found : ∀ i keyPrefix key, Did (σ.own i) (.findLiveApiKey keyPrefix) (some key) →
    Known w₀ σ key.userId

/-! ### Commands -/

section Commands

variable {i : Nat} {ch : Choice} {w w' : (mikrouliHttp D).World}

/-- A command of the services works on the world of the services. -/
theorem exec_inl_inl {c : Cmd} {res : Except AppError c.Res}
    (returned : (mikrouliHttp D).exec i (.inl (.inl c)) ch w = some (res, w')) :
    exec D.platform i c ch w.1.1 = some (res, w'.1.1) := by
  obtain ⟨⟨_, w₁⟩, returned₁, same₁⟩ := Option.map_eq_some_iff.mp returned
  obtain ⟨⟨_, w₂⟩, returned₂, same₂⟩ := Option.map_eq_some_iff.mp returned₁
  cases same₁
  cases same₂
  exact returned₂

theorem exec_inl_inr {c : ClickHouseCmd} {res : Except AppError c.Res}
    (returned : (mikrouliHttp D).exec i (.inl (.inr c)) ch w = some (res, w')) :
    w'.1.1 = w.1.1 := by
  obtain ⟨⟨_, w₁⟩, returned₁, same₁⟩ := Option.map_eq_some_iff.mp returned
  obtain ⟨⟨_, clicks⟩, -, same₂⟩ := Option.map_eq_some_iff.mp returned₁
  cases same₁
  cases same₂
  rfl

theorem exec_inr {c : HttpCmd} {res : Except AppError c.Res}
    (returned : (mikrouliHttp D).exec i (.inr c) ch w = some (res, w')) : w'.1.1 = w.1.1 := by
  obtain ⟨⟨_, memory⟩, -, same⟩ := Option.map_eq_some_iff.mp returned
  cases same
  rfl

/-- A key of the table was there before with the same owner, or was just made for its owner. -/
theorem owner_of_mem {c : Cmd} {u u' : World} {res : Except AppError c.Res}
    (returned : exec D.platform i c ch u = some (res, u')) {k : ApiKey} (member : k ∈ u'.apiKeys.rows) :
    (∃ k₀ ∈ u.apiKeys.rows, k₀.userId = k.userId) ∨
      ∃ label keyHash keyPrefix, c = .saveApiKey k.userId label keyHash keyPrefix := by
  -- an update changes columns of a row, but not its owner
  have touched {p : ApiKey → Bool} {f : ApiKey → ApiKey} (kept : ∀ k, (f k).id = k.id)
      (owner : ∀ k, (f k).userId = k.userId) (member : k ∈ (u.touchedKeys p f kept).rows) :
      ∃ k₀ ∈ u.apiKeys.rows, k₀.userId = k.userId := by
    obtain ⟨k₀, old, rfl⟩ := (World.mem_touchedKeys kept).mp member
    refine ⟨k₀, old, ?_⟩
    split
    · exact (owner k₀).symm
    · rfl
  cases c with
  | saveApiKey userId label keyHash keyPrefix =>
    rcases exec_saveApiKey returned with ⟨same, -⟩ | ⟨key, keys, -, inserted, same, row, -⟩
    · rw [same] at member
      exact .inl ⟨k, member, rfl⟩
    · rw [same, (Table.insert?_eq_some.mp inserted).2, List.mem_cons] at member
      rcases member with rfl | old
      · rw [row]
        exact .inr ⟨label, keyHash, keyPrefix, rfl⟩
      · exact .inl ⟨k, old, rfl⟩
  | revokeApiKey id userId now =>
    rcases exec_revokeApiKey returned with ⟨rfl, -⟩ | ⟨-, rfl⟩
    · exact .inl ⟨k, member, rfl⟩
    · refine .inl (touched ?_ ?_ member) <;> exact fun _ => rfl
  | touchApiKey id now =>
    rcases exec_touchApiKey returned with ⟨rfl, -⟩ | ⟨-, rfl⟩
    · exact .inl ⟨k, member, rfl⟩
    · refine .inl (touched ?_ ?_ member) <;> exact fun _ => rfl
  | _ =>
    rw [(exec_frame returned).apiKeys rfl] at member
    exact .inl ⟨k, member, rfl⟩

end Commands

/-! ### Steps -/

section Steps

variable {w₀ : World} {σ σ' : Shared (mikrouliHttp D)} {i : Nat} {userId : String}

theorem Known.mono (grown : ∀ j, σ.own j ⊆ σ'.own j) (known : Known w₀ σ userId) :
    Known w₀ σ' userId :=
  known.imp id fun ⟨j, signs⟩ => ⟨j, signs.mono (grown j)⟩

theorem Vouched.identified (vouched : Vouched w₀ σ) {method : AuthMethod}
    (identified : IdentifiedBy (σ.own i) method userId) : Known w₀ σ userId := by
  cases identified with
  | jwt asked carried verified access => exact vouched.verified i _ _ _ verified
  | apiKey presented =>
    obtain ⟨asked, carried, found, matched⟩ := presented
    exact vouched.found i _ _ found

theorem Vouched.authenticated (vouched : Vouched w₀ σ)
    (authenticated : Authenticated (σ.own i) userId) : Known w₀ σ userId := by
  rcases authenticated with signs | ⟨⟨asked, verified, type, claims, listed⟩, found⟩
  · exact .inr ⟨i, signs⟩
  · exact vouched.verified i _ _ _ verified

variable {c : httpApi.Cmd} {ch : Choice} {res : Except AppError (httpApi.Res c)}
  {w : (mikrouliHttp D).World}

theorem own_subset_called (j : Nat) : σ.own j ⊆ (σ.called i c res w).own j :=
  fun _ old => Shared.mem_own_called.mpr (.inr old)

theorem own_subset_started {n : Nat} {r : HttpReq} (j : Nat) : σ.own j ⊆ (σ.started n r).own j :=
  fun _ old => Shared.mem_own_started.mpr (.inr old)

theorem own_subset_ticked {e : HttpEnvironment} (j : Nat) : σ.own j ⊆ (σ.ticked e).own j :=
  fun _ old => old

/-- What a command adds to the tokens and the keys stands for users who are known. -/
theorem Vouched.exec (vouched : Vouched w₀ σ) (authorised : Authorised (σ.own i) c)
    (returned : (mikrouliHttp D).exec i c ch σ.world = some (res, w)) :
    (∀ t ∈ w.1.1.signed, Known w₀ σ t.payload.sub) ∧
      ∀ k ∈ w.1.1.apiKeys.rows, Known w₀ σ k.userId := by
  rcases c with (c | c) | c
  · have returned := exec_inl_inl returned
    have frame := exec_frame returned
    constructor
    · cases c with
      | sign secret payload expiresIn =>
        rw [exec_sign_signed returned]
        intro t member
        rcases List.mem_cons.mp member with rfl | old
        · exact vouched.authenticated authorised
        · exact vouched.signed t old
      | _ =>
        rw [frame.signed rfl]
        exact vouched.signed
    · intro k member
      rcases owner_of_mem returned member with ⟨k₀, old, owner⟩ | ⟨label, keyHash, keyPrefix, rfl⟩
      · rw [← owner]
        exact vouched.keys k₀ old
      · exact vouched.identified authorised
  · rw [exec_inl_inr returned]
    exact ⟨vouched.signed, vouched.keys⟩
  · rw [exec_inr returned]
    exact ⟨vouched.signed, vouched.keys⟩

theorem Vouched.called (vouched : Vouched w₀ σ) (authorised : Authorised (σ.own i) c)
    (returned : (mikrouliHttp D).exec i c ch σ.world = some (res, w))
    (allowed : signsAlone D σ (.call i c ch)) : Vouched w₀ (σ.called i c res w) := by
  have mono : ∀ {userId}, Known w₀ σ userId → Known w₀ (σ.called i c res w) userId :=
    fun known => known.mono own_subset_called
  obtain ⟨signed, keys⟩ := vouched.exec authorised returned
  constructor
  · exact fun t member => mono (signed t member)
  · exact fun k member => mono (keys k member)
  · intro j secret token payload did
    rcases Shared.mem_own_called.mp did with ⟨-, new⟩ | old
    · cases new
      -- the token that was verified is one the server has signed
      cases token with
      | jwt t =>
        obtain ⟨-, ⟨valid, secret', -⟩ | ⟨invalid, -⟩⟩ := exec_verify_jwt (exec_inl_inl returned)
        · cases valid
          exact mono (vouched.signed t (allowed secret'))
        · cases invalid
      | other s => cases exec_verify_other (exec_inl_inl returned)
    · exact mono (vouched.verified j _ _ _ old)
  · intro j keyPrefix key did
    rcases Shared.mem_own_called.mp did with ⟨-, new⟩ | old
    · cases new
      obtain ⟨-, rows⟩ := exec_findLiveApiKey (exec_inl_inl returned)
      exact mono (vouched.keys key (rows key rfl).1)
    · exact mono (vouched.found j _ _ old)

theorem Vouched.acts (vouched : Vouched w₀ σ)
    (acts : (mediation D).Acts (signsAlone D) σ σ') : Vouched w₀ σ' := by
  cases acts with
  | start n r _ allowed =>
    have mono : ∀ {userId}, Known w₀ σ userId → Known w₀ (σ.started n r) userId :=
      fun known => known.mono own_subset_started
    exact ⟨fun t member => mono (vouched.signed t member), fun k member => mono (vouched.keys k member),
      fun j _ _ _ did => mono (vouched.verified j _ _ _ (Shared.call_mem_own_started.mp did)),
      fun j _ _ did => mono (vouched.found j _ _ (Shared.call_mem_own_started.mp did))⟩
  | call pre returned allowed => exact vouched.called pre returned allowed
  | env e _ =>
    have world : (σ.ticked e).world.1.1.signed = σ.world.1.1.signed ∧
        (σ.ticked e).world.1.1.apiKeys = σ.world.1.1.apiKeys := by
      cases e <;> exact ⟨rfl, rfl⟩
    refine ⟨?_, ?_, vouched.verified, vouched.found⟩
    · rw [world.1]
      exact vouched.signed
    · rw [world.2]
      exact vouched.keys

theorem Vouched.initial (w : (mikrouliHttp D).World) : Vouched w.1.1 (⟨w, []⟩ : Shared (mikrouliHttp D)) :=
  ⟨fun t member => .inl (.inl ⟨t, member, rfl⟩), fun k member => .inl (.inr ⟨k, member, rfl⟩),
    fun _ _ _ _ did => absurd did List.not_mem_nil, fun _ _ _ did => absurd did List.not_mem_nil⟩

end Steps

/-! ### Rows of users -/

/-- The row was there when the run began, or a thread of it has inserted it: for a registration of
its email, or, without a password, for a GitHub identity of its email. -/
inductive Enrolled (w₀ : World) (σ : Shared (mikrouliHttp D)) : User → Prop
  | initial {v : Versioned User} (held : v ∈ w₀.users.rows) : Enrolled w₀ σ v.row
  | registered {i : Nat} {user : User} {passwordHash : Option String} {body : Json} {dto : Instance}
      (inserted : Did (σ.own i) (.insertUser user.email passwordHash) user)
      (asked : .start (.register body) ∈ σ.own i)
      (valid : ValidationPipe.transform (RegisterDto D.texts) body = .ok dto)
      (email : dto.text "email" = user.email) : Enrolled w₀ σ user
  | github {i : Nat} {user : User} {identity : GithubIdentity}
      (inserted : Did (σ.own i) (.insertUser user.email none) user)
      (returned : FromGithub (σ.own i) identity) (email : identity.email = user.email)
      (passwordless : user.passwordHash = none) : Enrolled w₀ σ user

/-- The id was remembered when the run began, or is that of a row with the Guest's email. -/
def NamesGuest (w₀ : (mikrouliHttp D).World) (σ : Shared (mikrouliHttp D)) (id : String) : Prop :=
  (∃ process, w₀.2 process = some id) ∨
    ∃ guest, Enrolled w₀.1.1 σ guest ∧ guest.email = GUEST_SENTINEL_EMAIL ∧ guest.id = id

/-- Whoever is in the table of users, was read from it or is remembered as the Guest. -/
structure Populated (w₀ : (mikrouliHttp D).World) (σ : Shared (mikrouliHttp D)) : Prop where
  rows : ∀ v ∈ σ.world.1.1.users.rows, Enrolled w₀.1.1 σ v.row
  byId : ∀ i id user, Did (σ.own i) (.findUserById id) (some user) → Enrolled w₀.1.1 σ user
  byEmail : ∀ i email user, Did (σ.own i) (.findUserByEmail email) (some user) →
    Enrolled w₀.1.1 σ user ∧ user.email = email
  memory : ∀ process id, σ.world.2 process = some id → NamesGuest w₀ σ id
  remembered : ∀ i process id,
    .call (.inr (.cachedGuestUserId process)) (.ok (some id)) ∈ σ.own i → NamesGuest w₀ σ id

section Rows

variable {w₀ : (mikrouliHttp D).World} {σ σ' : Shared (mikrouliHttp D)} {i : Nat} {userId : String}

theorem Enrolled.mono {w₀ : World} {user : User} (grown : ∀ j, σ.own j ⊆ σ'.own j)
    (enrolled : Enrolled w₀ σ user) : Enrolled w₀ σ' user := by
  cases enrolled with
  | initial held => exact .initial held
  | registered inserted asked valid email =>
    exact .registered (grown _ inserted) (grown _ asked) valid email
  | github inserted returned email passwordless =>
    exact .github (grown _ inserted) (returned.mono (grown _)) email passwordless

theorem NamesGuest.mono (grown : ∀ j, σ.own j ⊆ σ'.own j) (names : NamesGuest w₀ σ userId) :
    NamesGuest w₀ σ' userId :=
  names.imp id fun ⟨guest, enrolled, is⟩ => ⟨guest, enrolled.mono grown, is⟩

theorem Populated.guest (populated : Populated w₀ σ) (guest : GuestId (σ.own i) userId) :
    NamesGuest w₀ σ userId := by
  rcases guest with ⟨process, remembered⟩ | ⟨guest, found, id⟩
  · exact populated.remembered i process userId remembered
  · obtain ⟨enrolled, email⟩ := populated.byEmail i _ guest found
    exact .inr ⟨guest, enrolled, email, id⟩

/-- Whoever was signed in has a row. -/
theorem Populated.signsIn (populated : Populated w₀ σ) (signs : SignsIn (σ.own i) userId) :
    ∃ user, Enrolled w₀.1.1 σ user ∧ user.id = userId := by
  cases signs with
  | password asked valid found hashed nonempty matched =>
    exact ⟨_, (populated.byEmail i _ _ found).1, rfl⟩
  | known returned found owner committed => exact ⟨_, populated.byId i _ _ owner, rfl⟩
  | linked returned found saved committed => exact ⟨_, (populated.byEmail i _ _ found).1, rfl⟩

variable {c : httpApi.Cmd} {ch : Choice} {res : Except AppError (httpApi.Res c)}
  {w : (mikrouliHttp D).World}

/-- The only rows of users that a command adds are those that it inserts. -/
theorem Populated.exec_rows (populated : Populated w₀ σ) (authorised : Authorised (σ.own i) c)
    (returned : (mikrouliHttp D).exec i c ch σ.world = some (res, w)) :
    ∀ v ∈ w.1.1.users.rows, Enrolled w₀.1.1 (σ.called i c res w) v.row := by
  have kept : ∀ v ∈ σ.world.1.1.users.rows, Enrolled w₀.1.1 (σ.called i c res w) v.row :=
    fun v member => (populated.rows v member).mono own_subset_called
  rcases c with (c | c) | c
  · have executed := exec_inl_inl returned
    have rolledBack : ∀ v ∈ (σ.world.1.1.rollback i).users.rows,
        Enrolled w₀.1.1 (σ.called i (.inl (.inl c)) res w) v.row :=
      fun v member => kept v (mem_users_rollback.mp member).1
    cases c with
    | insertUser email passwordHash =>
      obtain ⟨-, ⟨-, -, same⟩ | ⟨-, -, ⟨-, users, -⟩ | ⟨user, shape, rfl, users⟩⟩⟩ :=
        exec_insertUser executed
      · rw [same]
        exact kept
      · rw [users]
        exact kept
      · rw [users]
        refine List.forall_mem_cons.mpr ⟨?_, kept⟩
        have inserted : Did ((σ.called i (.inl (.inl (.insertUser email passwordHash))) (.ok user)
            w).own i) (.insertUser email passwordHash) user :=
          Shared.mem_own_called.mpr (.inl ⟨rfl, rfl⟩)
        have email' : user.email = email := by rw [shape]
        have hash : user.passwordHash = passwordHash := by rw [shape]
        subst email'
        rcases authorised with ⟨body, dto, asked, valid, email⟩ | ⟨identity, back, email, none⟩
        · exact .registered inserted (own_subset_called i asked) valid email
        · subst none
          exact .github inserted (back.mono (own_subset_called i)) email hash
    | commit =>
      obtain ⟨-, -, same⟩ | ⟨-, -, same⟩ := exec_commit executed
      · rw [same]
        exact rolledBack
      · rw [same]
        intro v member
        obtain ⟨v₀, old, rfl⟩ := mem_users_commit.mp member
        rw [World.commitRows_row]
        exact kept v₀ old
    | rollback =>
      rw [(exec_rollback executed).1]
      exact rolledBack
    | saveProviderAccount providerUserId userId =>
      rw [(exec_saveProviderAccount executed).1]
      exact kept
    | _ =>
      rw [(exec_frame executed).users rfl]
      exact kept
  · rw [exec_inl_inr returned]
    exact kept
  · rw [exec_inr returned]
    exact kept

theorem exec_query {c : HttpCmd} {res : Except AppError c.Res} {w' : (mikrouliHttp D).World}
    (returned : (mikrouliHttp D).exec i (.inr c) ch w = some (res, w')) :
    httpQuery c ch w.1 w.2 = some (res, w'.2) := by
  obtain ⟨⟨_, memory⟩, queried, same⟩ := Option.map_eq_some_iff.mp returned
  cases same
  exact queried

theorem exec_memory {c : HttpCmd} {res : Except AppError c.Res} {w' : (mikrouliHttp D).World}
    (returned : (mikrouliHttp D).exec i (.inr c) ch w = some (res, w')) {process : Nat} {id : String}
    (held : w'.2 process = some id) :
    w.2 process = some id ∨ ∃ process', c = .cacheGuestUserId process' id := by
  have queried := exec_query returned
  have kept {r : Except AppError c.Res} (same : some (r, w.2) = some (res, w'.2)) :
      w.2 process = some id := by
    rw [(Prod.mk.inj (Option.some.inj same)).2]
    exact held
  cases c with
  | listLinks userId =>
    simp only [httpQuery] at queried
    split at queried
    · exact .inl (kept queried)
    · split at queried
      · exact .inl (kept queried)
      · cases queried
  | cachedGuestUserId process' => exact .inl (kept queried)
  | cacheGuestUserId process' id' =>
    rw [← (Prod.mk.inj (Option.some.inj queried)).2] at held
    by_cases here : process = process'
    · subst here
      rw [Function.update_self] at held
      cases held
      exact .inr ⟨process, rfl⟩
    · rw [Function.update_of_ne here] at held
      exact .inl held

/-- An id comes to be remembered where it was taken for the Guest's. -/
theorem Populated.exec_memory (populated : Populated w₀ σ) (authorised : Authorised (σ.own i) c)
    (returned : (mikrouliHttp D).exec i c ch σ.world = some (res, w)) {process : Nat} {id : String}
    (held : w.2 process = some id) : NamesGuest w₀ σ id := by
  rcases c with (c | c) | c
  · obtain ⟨⟨_, _⟩, -, same⟩ := Option.map_eq_some_iff.mp returned
    cases same
    exact populated.memory process id held
  · obtain ⟨⟨_, _⟩, -, same⟩ := Option.map_eq_some_iff.mp returned
    cases same
    exact populated.memory process id held
  · rcases Mikrouli.exec_memory returned held with old | ⟨process', rfl⟩
    · exact populated.memory process id old
    · exact populated.guest authorised.2

theorem Populated.called (populated : Populated w₀ σ) (authorised : Authorised (σ.own i) c)
    (returned : (mikrouliHttp D).exec i c ch σ.world = some (res, w)) :
    Populated w₀ (σ.called i c res w) := by
  have enrolls : ∀ {user}, Enrolled w₀.1.1 σ user → Enrolled w₀.1.1 (σ.called i c res w) user :=
    fun enrolled => enrolled.mono own_subset_called
  have names : ∀ {id}, NamesGuest w₀ σ id → NamesGuest w₀ (σ.called i c res w) id :=
    fun guest => guest.mono own_subset_called
  constructor
  · exact populated.exec_rows authorised returned
  · intro j id user did
    rcases Shared.mem_own_called.mp did with ⟨-, new⟩ | old
    · cases new
      obtain ⟨-, ⟨-, failed⟩ | same⟩ := exec_findUserById (exec_inl_inl returned)
      · cases failed
      · obtain ⟨v, member, rfl, -⟩ := World.userById_eq_some (Except.ok.inj same).symm
        exact enrolls (populated.rows v member)
    · exact enrolls (populated.byId j id user old)
  · intro j email user did
    rcases Shared.mem_own_called.mp did with ⟨-, new⟩ | old
    · cases new
      obtain ⟨-, ⟨-, failed⟩ | same⟩ := exec_findUserByEmail (exec_inl_inl returned)
      · cases failed
      · obtain ⟨v, member, rfl, -, email⟩ := World.userByEmail_eq_some (Except.ok.inj same).symm
        exact ⟨enrolls (populated.rows v member), email⟩
    · exact (populated.byEmail j email user old).imp enrolls id
  · exact fun process id held => names (populated.exec_memory authorised returned held)
  · intro j process id did
    rcases Shared.mem_own_called.mp did with ⟨-, new⟩ | old
    · cases new
      have answered := (Prod.mk.inj (Option.some.inj (exec_query returned))).1
      exact names (populated.memory process id (Except.ok.inj answered))
    · exact names (populated.remembered j process id old)

theorem Populated.acts {G : Guard (mikrouliHttp D)} (populated : Populated w₀ σ)
    (acts : (mediation D).Acts G σ σ') : Populated w₀ σ' := by
  cases acts with
  | start n r _ allowed =>
    have old : ∀ {j cmd res}, .call cmd res ∈ (σ.started n r).own j → .call cmd res ∈ σ.own j :=
      Shared.call_mem_own_started.mp
    exact ⟨fun v member => (populated.rows v member).mono own_subset_started,
      fun j _ _ did => (populated.byId j _ _ (old did)).mono own_subset_started,
      fun j _ _ did => (populated.byEmail j _ _ (old did)).imp (Enrolled.mono own_subset_started) id,
      fun process _ held => (populated.memory process _ held).mono own_subset_started,
      fun j _ _ did => (populated.remembered j _ _ (old did)).mono own_subset_started⟩
  | call pre returned allowed => exact populated.called pre returned
  | env e _ =>
    refine ⟨fun v member => ?_, fun j _ _ did => (populated.byId j _ _ did).mono own_subset_ticked,
      fun j _ _ did => (populated.byEmail j _ _ did).imp (Enrolled.mono own_subset_ticked) id,
      fun process' id held => ?_,
      fun j _ _ did => (populated.remembered j _ _ did).mono own_subset_ticked⟩
    · cases e <;> exact (populated.rows v member).mono own_subset_ticked
    · cases e with
      | pass ms => exact (populated.memory process' id held).mono own_subset_ticked
      | restart process =>
        -- what the process remembered is lost
        change Function.update σ.world.2 process none process' = some id at held
        by_cases here : process' = process
        · subst here
          rw [Function.update_self] at held
          cases held
        · rw [Function.update_of_ne here] at held
          exact (populated.memory process' id held).mono own_subset_ticked

theorem Populated.initial (w : (mikrouliHttp D).World) :
    Populated w (⟨w, []⟩ : Shared (mikrouliHttp D)) :=
  ⟨fun _ member => .initial member, fun _ _ _ did => absurd did List.not_mem_nil,
    fun _ _ _ did => absurd did List.not_mem_nil, fun process _ held => .inl ⟨process, held⟩,
    fun _ _ _ did => absurd did List.not_mem_nil⟩

end Rows

/-! ### The whole run -/

section Runs

variable {w : (mikrouliHttp D).World} {c : Config (mikrouliHttp D)}

theorem vouched_of_reach (reach : Reach (signsAlone D) (initial w) c) : Vouched w.1.1 c.shared :=
  ((Contract.ofHistory_holds w : (mediation D).Holds (signsAlone D) (initial w))).invariant
    (Contract.ofHistory_sound respond_mediated) (fun _ _ _ acts vouched => vouched.acts acts)
    (Vouched.initial w) reach

theorem populated_of_reach {G : Guard (mikrouliHttp D)} (reach : Reach G (initial w) c) :
    Populated w c.shared :=
  ((Contract.ofHistory_holds w : (mediation D).Holds G (initial w))).invariant
    (Contract.ofHistory_sound respond_mediated) (fun _ _ _ acts populated => populated.acts acts)
    (Populated.initial w) reach

/-- Nobody is acted for, with a token or with an API key, who has not been signed in; and whoever
was signed in, or taken for the Guest, has a row that was there or was made by a registration or
for a GitHub identity. -/
theorem known_of_identified (reach : Reach (signsAlone D) (initial w) c) :
    (∀ t ∈ c.shared.world.1.1.signed, Known w.1.1 c.shared t.payload.sub) ∧
      (∀ k ∈ c.shared.world.1.1.apiKeys.rows, Known w.1.1 c.shared k.userId) ∧
      (∀ i userId, Identified (c.shared.own i) userId ∨ Authenticated (c.shared.own i) userId →
        Known w.1.1 c.shared userId) ∧
      (∀ i userId, SignsIn (c.shared.own i) userId →
        ∃ user, Enrolled w.1.1 c.shared user ∧ user.id = userId) ∧
      ∀ i userId, AsGuest (c.shared.own i) userId → NamesGuest w c.shared userId := by
  have vouched := vouched_of_reach reach
  have populated := populated_of_reach reach
  refine ⟨vouched.signed, vouched.keys, fun i userId either => ?_,
    fun i userId signs => populated.signsIn signs, fun i userId guest => populated.guest guest.2⟩
  rcases either with ⟨method, identified⟩ | authenticated
  · exact vouched.identified identified
  · exact vouched.authenticated authenticated

end Runs

/-! ### A concrete run -/

/-- Decides `signsAlone`. -/
def isSignedAlone (σ : Shared (mikrouliHttp D)) (a : Act (mikrouliHttp D)) : Bool :=
  match a with
  | .call _ (.inl (.inl (.verify _ (.jwt t)))) _ => decide (t ∈ σ.world.1.1.signed)
  | _ => true

theorem signsAlone_of_isSignedAlone (σ : Shared (mikrouliHttp D)) (a : Act (mikrouliHttp D))
    (test : isSignedAlone σ a = true) : signsAlone D σ a := by
  unfold isSignedAlone at test
  split at test
  · exact fun _ => of_decide_eq_true test
  next other =>
    unfold signsAlone
    split
    · exact absurd rfl (other _ _ _ _)
    · trivial

theorem known_of_identified_keyMaking : ∃ c,
    Reach (signsAlone .plain) (initial oneAccount) c ∧
      Identified (c.shared.own 1) "u@ab.cd" ∧ Known oneAccount.1.1 c.shared "u@ab.cd" := by
  obtain ⟨c, reach, passed⟩ := exists_reach_of_play signsAlone_of_isSignedAlone (initial oneAccount)
    keyMaking (fun c => decide (savesKeyFor c 1 = some "u@ab.cd")) (by decide +kernel)
  obtain ⟨label, keyHash, keyPrefix, waits⟩ := awaits_of_savesKeyFor (of_decide_eq_true passed)
  have identified : Identified (c.shared.own 1) "u@ab.cd" :=
    ⟨.jwt, (mediation_holds reach).pre waits⟩
  exact ⟨c, reach, identified, (known_of_identified reach).2.2.1 1 "u@ab.cd" (.inl identified)⟩

end Mikrouli
