import Mikrouli.Model.Guest
import Mikrouli.Properties.FailClosed
import Mikrouli.Properties.Resolution

/-! The Guest row over whole runs of the API: when nobody can ever sign in as its user. -/

namespace Mikrouli

open Async Store

variable {P : Platform} {i : Nat} {w w' : World}

/-! ### Runs -/

/-- The request is authentic: its token was signed by the server, or it comes with such a token
as its session. -/
def Authentic (P : Platform) (w : World) : Req → Prop
  | .rotateRefresh (.jwt t) => t ∈ w.signed
  | .createKey userId _ => ∃ t ∈ w.signed, t.secret = P.jwtSecret ∧
      JwtStrategy.isAccessToken t.payload = true ∧ t.payload.sub = userId
  | _ => True

/-- Requests one after the other, with the migration at any point between them; any command may
fail. -/
def guestRuns (P : Platform) (guard : World → Req → Prop) : Regime (mikrouli P) where
  toSetting := alone P fun _ => True
  idle w w' := (∃ ms, w' = w.advance ms) ∨ ∃ id, w.seedGuestUser id = some w'
  next _ w r := Authentic P w r ∧ guard w r

/-- The request does not take the sentinel email: a registration with it finds the row there, and
a sign-in with it comes from an identity that is linked already. -/
def SparesGuest (w : World) : Req → Prop
  | .register email _ => email = GUEST_SENTINEL_EMAIL →
      ∃ v ∈ w.users.rows, v.row.email = GUEST_SENTINEL_EMAIL
  | .findOrCreateFromProvider identity | .loginWithGithub identity =>
      identity.email = GUEST_SENTINEL_EMAIL →
      ∃ v ∈ w.providerAccounts.rows, v.row.providerUserId = identity.providerUserId
  | _ => True

/-- No token was ever signed and no API key was ever made for the user. -/
structure World.Unclaimed (w : World) (userId : String) : Prop where
  tokens : ∀ t ∈ w.signed, t.payload.sub ≠ userId
  keys : ∀ k ∈ w.apiKeys.rows, k.userId ≠ userId

/-! ### Invariant -/

/-- Whoever holds tokens or keys has an id that was drawn, and the Guest row has no password, no
identity, no token and no key. -/
structure World.GuestSafe (w : World) : Prop where
  settled : w.Settled
  referential : w.Referential
  subjects : ∀ t ∈ w.signed, t.payload.sub ∈ w.drawn
  owners : ∀ k ∈ w.apiKeys.rows, k.userId ∈ w.drawn
  password : ∀ v ∈ w.users.rows, v.row.email = GUEST_SENTINEL_EMAIL → v.row.passwordHash = none
  unlinked : ∀ v ∈ w.users.rows, v.row.email = GUEST_SENTINEL_EMAIL →
    ∀ a ∈ w.providerAccounts.rows, a.row.userId ≠ v.row.id
  unclaimed : ∀ v ∈ w.users.rows, v.row.email = GUEST_SENTINEL_EMAIL → w.Unclaimed v.row.id

/-- A user that may be given tokens and keys. -/
def World.MayHold (w : World) (userId : String) : Prop :=
  userId ∈ w.drawn ∧ ∀ v ∈ w.users.rows, v.row.email = GUEST_SENTINEL_EMAIL → userId ≠ v.row.id

theorem World.GuestSafe.advance (safe : w.GuestSafe) (ms : Nat) : (w.advance ms).GuestSafe :=
  ⟨safe.settled.advance ms, safe.referential, safe.subjects, safe.owners, safe.password,
    safe.unlinked, fun v member sentinel =>
      ⟨(safe.unclaimed v member sentinel).tokens, (safe.unclaimed v member sentinel).keys⟩⟩

theorem World.GuestSafe.initial (now : Nat) : (World.empty now).GuestSafe := by
  constructor <;> simp [World.empty, World.Referential]
  exact ⟨by simp, by simp⟩

/-- A step that leaves users and accounts alone gives tokens and keys only to those who may hold
them. -/
theorem World.GuestSafe.holds (safe : w.GuestSafe) (users : w'.users = w.users)
    (accounts : w'.providerAccounts = w.providerAccounts) (drawn : w.drawn ⊆ w'.drawn)
    (signed : ∀ t ∈ w'.signed, t ∈ w.signed ∨ w.MayHold t.payload.sub)
    (apiKeys : ∀ k ∈ w'.apiKeys.rows, (∃ k₀ ∈ w.apiKeys.rows, k.userId = k₀.userId) ∨
      w.MayHold k.userId) : w'.GuestSafe where
  settled := by
    constructor
    · rw [users]
      exact fun v member => (safe.settled.users v member).imp_right fun old => drawn old
    · rw [accounts]
      exact fun v member => (safe.settled.accounts v member).imp_right fun old => drawn old
  referential := by
    rw [World.Referential, users, accounts]
    exact safe.referential
  subjects := by
    intro t member
    rcases signed t member with old | may
    · exact drawn (safe.subjects t old)
    · exact drawn may.1
  owners := by
    intro k member
    rcases apiKeys k member with ⟨k₀, old, same⟩ | may
    · exact drawn (same ▸ safe.owners k₀ old)
    · exact drawn may.1
  password := users ▸ safe.password
  unlinked := by
    rw [users, accounts]
    exact safe.unlinked
  unclaimed := by
    rw [users]
    intro v member sentinel
    have before := safe.unclaimed v member sentinel
    constructor
    · intro t there
      rcases signed t there with old | may
      · exact before.tokens t old
      · exact may.2 v member sentinel
    · intro k there
      rcases apiKeys k there with ⟨k₀, old, same⟩ | may
      · exact same ▸ before.keys k₀ old
      · exact may.2 v member sentinel

/-- Accounts that are added under other emails leave the Guest row as it is. -/
theorem World.GuestSafe.adds {us : List User} {as : List ProviderAccount} (safe : w.GuestSafe)
    (adds : World.Adds none us as w w') (settled : w'.Settled) (referential : w'.Referential)
    (others : ∀ user ∈ us, user.email ≠ GUEST_SENTINEL_EMAIL)
    (elsewhere : ∀ account ∈ as, ∀ v ∈ w.users.rows, v.row.email = GUEST_SENTINEL_EMAIL →
      account.userId ≠ v.row.id) : w'.GuestSafe := by
  have old : ∀ v ∈ w'.users.rows, v.row.email = GUEST_SENTINEL_EMAIL → v ∈ w.users.rows := by
    intro v member sentinel
    rw [adds.users, List.mem_append, List.mem_map] at member
    rcases member with ⟨user, new, rfl⟩ | before
    · exact absurd sentinel (others user new)
    · exact before
  refine ⟨settled, referential, ?_, ?_, ?_, ?_, ?_⟩
  · rw [adds.signed]
    exact fun t member => adds.drawn (safe.subjects t member)
  · rw [adds.apiKeys]
    exact fun k member => adds.drawn (safe.owners k member)
  · exact fun v member sentinel => safe.password v (old v member sentinel) sentinel
  · intro v member sentinel a there
    rw [adds.accounts, List.mem_append, List.mem_map] at there
    rcases there with ⟨account, new, rfl⟩ | before
    · exact elsewhere account new v (old v member sentinel) sentinel
    · exact safe.unlinked v (old v member sentinel) sentinel a before
  · intro v member sentinel
    have before := safe.unclaimed v (old v member sentinel) sentinel
    constructor
    · rw [adds.signed]
      exact before.tokens
    · rw [adds.apiKeys]
      exact before.keys

theorem World.GuestSafe.still (safe : w.GuestSafe) (adds : World.Adds none [] [] w w') :
    w'.GuestSafe :=
  safe.adds adds (safe.settled.adds adds (by simp) (by simp))
    (safe.referential.adds adds (by simp)) (by simp) (by simp)

/-- A user with another email than the sentinel may hold tokens. -/
theorem World.GuestSafe.mayHold (safe : w.GuestSafe) {v : Versioned User}
    (row : v ∈ w.users.rows) (other : v.row.email ≠ GUEST_SENTINEL_EMAIL) :
    w.MayHold v.row.id := by
  refine ⟨(safe.settled.users v row).2, fun guest member sentinel same => ?_⟩
  -- ids are unique, so only the Guest row has the Guest's
  have one := Table.eq_of_key (t := w.users) (k := fun v => v.row.id) (by simp) row member same
  rw [one] at other
  exact other sentinel

theorem World.GuestSafe.issues {allowed : Choice → Prop} {user : User}
    {r : Except AppError IssuedTokens} (safe : w.GuestSafe) (may : w.MayHold user.id)
    (issues : Issues P allowed user w r w') : w'.GuestSafe := by
  cases issues with
  | issued _ same accessed refreshed _ signed =>
    refine safe.holds same.users same.accounts same.drawn ?_ ?_
    · rw [signed]
      intro t member
      simp only [List.mem_cons] at member
      rcases member with rfl | rfl | old
      · exact .inr (by rw [refreshed.1]; exact may)
      · exact .inr (by rw [accessed.1]; exact may)
      · exact .inl old
    · rw [same.apiKeys]
      exact fun k member => .inl ⟨k, member, rfl⟩
  | failed _ same accessed refreshed signed =>
    obtain ⟨jti, family, refreshed⟩ := refreshed
    refine safe.holds same.users same.accounts same.drawn ?_ ?_
    · rw [signed]
      intro t member
      simp only [List.mem_cons] at member
      rcases member with rfl | rfl | old
      · exact .inr (by rw [refreshed]; exact may)
      · exact .inr (by rw [accessed]; exact may)
      · exact .inl old
    · rw [same.apiKeys]
      exact fun k member => .inl ⟨k, member, rfl⟩

/-! ### Requests -/

theorem owner_of_touched {p : ApiKey → Bool} {f : ApiKey → ApiKey} (kept : ∀ v, (f v).id = v.id)
    (owner : ∀ v, (f v).userId = v.userId) {k : ApiKey} (member : k ∈ (w.touchedKeys p f kept).rows) :
    ∃ k₀ ∈ w.apiKeys.rows, k.userId = k₀.userId := by
  obtain ⟨k₀, old, rfl⟩ := (World.mem_touchedKeys kept).mp member
  refine ⟨k₀, old, ?_⟩
  split
  · exact owner k₀
  · rfl

/-- A command that neither writes accounts nor signs, and saves a key only for those who may hold
one. -/
theorem World.GuestSafe.exec {c : Cmd} {ch : Choice} {res : Except AppError c.Res}
    (safe : w.GuestSafe) (accounts : c.writesAccounts = false) (signs : c.signs = false)
    (keys : ∀ userId label h p, c = .saveApiKey userId label h p → w.MayHold userId)
    (returned : exec P i c ch w = some (res, w')) : w'.GuestSafe := by
  have frame := exec_frame returned
  refine safe.holds (frame.users accounts) (frame.providerAccounts accounts) frame.drawn ?_ ?_
  · rw [frame.signed signs]
    exact fun t member => .inl member
  · cases c with
    | saveApiKey userId label keyHash keyPrefix =>
      rcases exec_saveApiKey returned with ⟨same, -⟩ | ⟨key, table, -, inserted, same, rfl, -⟩
      · rw [same]
        exact fun k member => .inl ⟨k, member, rfl⟩
      · rw [same, (Table.insert?_eq_some.mp inserted).2]
        intro k member
        rcases List.mem_cons.mp member with rfl | old
        · exact .inr (keys _ _ _ _ rfl)
        · exact .inl ⟨k, old, rfl⟩
    | revokeApiKey id userId now =>
      rcases exec_revokeApiKey returned with ⟨rfl, -⟩ | ⟨-, rfl⟩
      · exact fun k member => .inl ⟨k, member, rfl⟩
      · exact fun k member =>
          .inl (owner_of_touched (f := fun k => { k with revokedAt := some now }) (fun _ => rfl)
            (fun _ => rfl) member)
    | touchApiKey id now =>
      rcases exec_touchApiKey returned with ⟨rfl, -⟩ | ⟨-, rfl⟩
      · exact fun k member => .inl ⟨k, member, rfl⟩
      · exact fun k member =>
          .inl (owner_of_touched (f := fun k => { k with lastUsedAt := some now }) (fun _ => rfl)
            (fun _ => rfl) member)
    | _ =>
      rw [frame.apiKeys rfl]
      exact fun k member => .inl ⟨k, member, rfl⟩

theorem Registers.guestSafe {allowed : Choice → Prop} {email password : String}
    {r : Except AppError PublicUser} (safe : w.GuestSafe) (spares : SparesGuest w (.register email password))
    (registers : Registers P allowed email password w r w') : w'.GuestSafe := by
  have reached := registers.reaches safe.settled safe.referential
  cases registers with
  | @created user _ _ unused own _ _ _ adds =>
    refine safe.adds adds reached.1 reached.2 ?_ (by simp)
    intro user' member sentinel
    rw [List.mem_singleton] at member
    subst member
    -- with the sentinel email the registration would have found the Guest row
    obtain ⟨v, there, same⟩ := spares (own ▸ sentinel)
    exact unused v there (same.trans (sentinel.symm.trans own))
  | decoy _ _ _ _ adds | failed _ adds => exact safe.still adds

theorem FindsOrCreates.guestSafe {allowed : Choice → Prop} {identity : GithubIdentity}
    {r : Except AppError User} (safe : w.GuestSafe)
    (spares : identity.email = GUEST_SENTINEL_EMAIL →
      ∃ v ∈ w.providerAccounts.rows, v.row.providerUserId = identity.providerUserId)
    (resolves : FindsOrCreates allowed identity w r w') :
    w'.GuestSafe ∧ ∀ user, r = .ok user → w'.MayHold user.id := by
  have reached := resolves.reaches safe.settled safe.referential
  -- branches 2 and 3 are for identities that are not linked, and those spare the sentinel email
  have other : (∀ v ∈ w.providerAccounts.rows, v.row.providerUserId ≠ identity.providerUserId) →
      identity.email ≠ GUEST_SENTINEL_EMAIL := by
    intro unlinked sentinel
    obtain ⟨v, there, same⟩ := spares sentinel
    exact unlinked v there same
  have safe' : w'.GuestSafe := by
    cases resolves with
    | known _ _ adds | refused _ _ adds | failed _ adds => exact safe.still adds
    | linked _ unlinked row email _ _ owner _ adds =>
      refine safe.adds adds reached.1 reached.2 (by simp) ?_
      intro account member
      rw [List.mem_singleton] at member
      subst member
      rw [owner]
      exact (safe.mayHold row (by rw [email]; exact other unlinked)).2
    | @created user account _ _ unlinked unused email _ fresh _ owner _ adds =>
      refine safe.adds adds reached.1 reached.2 ?_ ?_
      · intro user' member
        rw [List.mem_singleton] at member
        rw [member, email]
        exact other unlinked
      · intro account' member v there _ same
        rw [List.mem_singleton] at member
        subst member
        rw [owner] at same
        exact fresh (same ▸ (safe.settled.users v there).2)
  refine ⟨safe', ?_⟩
  rintro user rfl
  obtain ⟨row, account, there, -, owner⟩ := resolves.linkedTo
  -- a linked user is not the Guest
  refine ⟨(safe'.settled.users _ row).2, fun v member sentinel same => ?_⟩
  exact safe'.unlinked v member sentinel _ there (owner.trans same)

theorem signs_of_mayIssue {r : Req} (other : r.onTokens = false) {c : Cmd}
    (issued : r.MayIssue c) : c.signs = false := by
  cases c with
  | sign _ _ _ =>
    have onTokens : r.onTokens = true := issued
    rw [other] at onTokens
    cases onTokens
  | _ => rfl

/-- A key is made for the user of the request alone. -/
theorem createKey_guestSafe {userId label : String} (safe : w.GuestSafe)
    (may : w.MayHold userId) :
    Always (machine P) (alone P fun _ => True) i (fun _ w' => w'.GuestSafe ∧ w'.MayHold userId)
      (serve P (.createKey userId label)) w := by
  refine Always.of_only (serve_only P _) ?_ ?_ ⟨safe, may⟩
  · rintro w _ ⟨safe, may⟩ ⟨ms, rfl⟩
    exact ⟨safe.advance ms, may⟩
  · rintro c ch w res w' issued ⟨safe, may⟩ - returned
    have accounts := reads_of_mayIssue rfl issued
    refine ⟨safe.exec accounts (signs_of_mayIssue rfl issued) ?_ returned, ?_⟩
    · rintro owner label' h p rfl
      have same : some userId = some owner := issued
      cases same
      exact may
    · have frame := exec_frame returned
      refine ⟨frame.drawn may.1, ?_⟩
      rw [frame.users accounts]
      exact may.2

theorem serve_guestSafe {r : Req} (safe : w.GuestSafe) (authentic : Authentic P w r)
    (spares : SparesGuest w r) :
    Always (machine P) (alone P fun _ => True) i (fun _ w' => w'.GuestSafe) (serve P r) w := by
  have drifts : ∀ w w₀ : World, w.GuestSafe → (∃ ms, w₀ = w.advance ms) → w₀.GuestSafe := by
    rintro w _ safe ⟨ms, rfl⟩
    exact safe.advance ms
  cases r with
  | register email password =>
    apply Always.map
    exact (alone_register safe.settled).mono fun _ _ registers => registers.guestSafe safe spares
  | findOrCreateFromProvider identity =>
    apply Always.map
    exact (alone_findOrCreateFromProvider safe.settled safe.referential).mono fun _ _ resolves =>
      (resolves.guestSafe safe spares).1
  | loginWithGithub identity =>
    apply Always.map
    apply Always.bind
    refine (alone_findOrCreateFromProvider safe.settled safe.referential).mono
      fun r w₁ resolves => ?_
    obtain ⟨safe₁, may⟩ := resolves.guestSafe safe spares
    cases r with
    | error e => exact safe₁
    | ok user => exact alone_issueTokens.mono fun _ _ issues => safe₁.issues (may user rfl) issues
  | login email password =>
    apply Always.map
    apply Always.bind
    refine (alone_validateCredentials safe.settled).mono fun r w₁ validates => ?_
    cases validates with
    | @opened user _ _ row _ match_ adds =>
      have safe₁ := safe.still adds
      have row₁ : ⟨user, none⟩ ∈ w₁.users.rows := by
        rw [adds.users]
        exact row
      refine alone_issueTokens.mono fun _ _ issues => safe₁.issues ?_ issues
      -- the Guest row has no password, so nothing opens it
      refine safe₁.mayHold row₁ fun sentinel => ?_
      have missing : user.passwordHash = none := safe₁.password _ row₁ sentinel
      rw [missing] at match_
      simp [opens] at match_
    | refused _ _ adds => exact safe.still adds
    | failed _ adds => exact safe.still adds
  | rotateRefresh token =>
    apply Always.map
    refine alone_rotateRefresh.mono fun r w' rotation => ?_
    cases rotation with
    | refused ms => exact safe.advance ms
    | @reused payload jti family stored ms ms' =>
      exact (safe.advance ms').holds rfl rfl (List.Subset.refl _) (fun t member => .inl member)
        fun k member => .inl ⟨k, member, rfl⟩
    | @accepted payload jti family user ms ms' _ _ carries _ _ _ found issues =>
      -- an authentic token was signed for a user that may hold it
      obtain ⟨t, rfl, rfl⟩ := carries
      obtain ⟨row, id⟩ := safe.settled.userById found
      refine (safe.advance ms').issues ?_ issues
      rw [id]
      exact ⟨safe.subjects t authentic, fun v member sentinel =>
        (safe.unclaimed v member sentinel).tokens t authentic⟩
  | createKey userId label =>
    obtain ⟨t, signed, -, -, rfl⟩ := authentic
    have may : w.MayHold t.payload.sub :=
      ⟨safe.subjects t signed, fun v member sentinel =>
        (safe.unclaimed v member sentinel).tokens t signed⟩
    exact (createKey_guestSafe safe may).mono fun _ _ after => after.1
  | revokeRefresh token =>
    apply Always.map
    refine alone_revokeRefresh.mono fun r w' revocation => ?_
    cases revocation with
    | nothing ms => exact safe.advance ms
    | @revoked payload family ms =>
      exact (safe.advance ms).holds rfl rfl (List.Subset.refl _) (fun t member => .inl member)
        fun k member => .inl ⟨k, member, rfl⟩
  | _ =>
    refine Always.of_only (serve_only P _) drifts ?_ safe
    intro c ch w res w' issued safe _ returned
    refine safe.exec (reads_of_mayIssue rfl issued) (signs_of_mayIssue rfl issued) ?_ returned
    rintro userId label h p rfl
    cases issued

/-! ### Runs -/

/-- The migration makes the Guest row under a fresh id, so nothing refers to it yet; where the
sentinel email is taken it does nothing. -/
theorem World.GuestSafe.seed {id : String} (safe : w.GuestSafe)
    (seeded : w.seedGuestUser id = some w') : w'.GuestSafe := by
  unfold World.seedGuestUser at seeded
  split at seeded
  · cases seeded
    exact safe
  · split at seeded
    · cases seeded
    next w₁ drawn =>
      obtain ⟨⟨-, fresh⟩, rfl⟩ := drawFresh_eq_some.mp drawn
      rw [Option.map_eq_some_iff] at seeded
      obtain ⟨users, inserted, rfl⟩ := seeded
      have rows := (Table.insert?_eq_some.mp inserted).2
      -- every subject and every owner was drawn before
      have unseen : ∀ s ∈ w.drawn, s ≠ id := fun s member same => fresh (same ▸ member)
      refine ⟨⟨?_, ?_⟩, ?_, ?_, ?_, ?_, ?_, ?_⟩
      · rw [rows, List.forall_mem_cons]
        exact ⟨⟨rfl, List.mem_cons_self⟩, fun v member =>
          (safe.settled.users v member).imp_right (List.mem_cons_of_mem _)⟩
      · exact fun v member => (safe.settled.accounts v member).imp_right (List.mem_cons_of_mem _)
      · intro a member
        obtain ⟨u, there, same⟩ := safe.referential a member
        exact ⟨u, rows ▸ List.mem_cons_of_mem _ there, same⟩
      · exact fun t member => List.mem_cons_of_mem _ (safe.subjects t member)
      · exact fun k member => List.mem_cons_of_mem _ (safe.owners k member)
      · rw [rows, List.forall_mem_cons]
        exact ⟨fun _ => rfl, safe.password⟩
      · rw [rows, List.forall_mem_cons]
        refine ⟨fun _ a member => ?_, safe.unlinked⟩
        obtain ⟨u, there, own⟩ := safe.referential a member
        have drawn := unseen _ (safe.settled.users u there).2
        rwa [own] at drawn
      · rw [rows, List.forall_mem_cons]
        refine ⟨fun _ => ⟨?_, ?_⟩, fun v member sentinel => ?_⟩
        · exact fun t member => unseen _ (safe.subjects t member)
        · exact fun k member => unseen _ (safe.owners k member)
        · exact ⟨(safe.unclaimed v member sentinel).tokens, (safe.unclaimed v member sentinel).keys⟩

theorem World.GuestSafe.session {w₀ : World} {h : List (Served (mikrouli P))} (safe : w₀.GuestSafe)
    (session : Session (guestRuns P SparesGuest) w₀ h w) : w.GuestSafe := by
  refine session.invariant (fun _ (w : World) => w.GuestSafe) safe ?_ ?_
  · rintro _ w _ safe (⟨ms, rfl⟩ | ⟨id, seeded⟩)
    · exact safe.advance ms
    · exact safe.seed seeded
  · rintro h w r safe ⟨authentic, spares⟩
    exact serve_guestSafe safe authentic spares

/-- A committed user stays as it is. -/
theorem guestRuns_user_kept {guard : World → Req → Prop} {w₀ : World}
    {h : List (Served (mikrouli P))} (session : Session (guestRuns P guard) w₀ h w)
    {user : User} (member : ⟨user, none⟩ ∈ w₀.users.rows) : ⟨user, none⟩ ∈ w.users.rows := by
  refine session.invariant (fun _ (w : World) => ⟨user, none⟩ ∈ w.users.rows) member ?_ ?_
  · rintro _ w w' member (⟨ms, rfl⟩ | ⟨id, seeded⟩)
    · exact member
    · unfold World.seedGuestUser at seeded
      split at seeded
      · cases seeded
        exact member
      · split at seeded
        · cases seeded
        · rw [Option.map_eq_some_iff] at seeded
          obtain ⟨users, inserted, rfl⟩ := seeded
          rw [(Table.insert?_eq_some.mp inserted).2]
          exact List.mem_cons_of_mem _ member
  · exact fun h w r member _ => serve_user_kept member

theorem alone_getGuestUserId {allowed : Choice → Prop} :
    Always (machine P) (alone P allowed) i
      (fun r w' => (∃ ms, w' = w.advance ms) ∧ ∀ id, r = .ok id →
        ∃ user, w.userByEmail i GUEST_SENTINEL_EMAIL = some user ∧ user.id = id)
      (UsersService.getGuestUserId none) w := by
  apply Always.bind
  refine alone_findUserByEmail (fun _ ms => ⟨⟨ms, rfl⟩, by simp⟩) fun _ ms => ?_
  cases found : w.userByEmail i GUEST_SENTINEL_EMAIL with
  | none => exact ⟨⟨ms, rfl⟩, by simp⟩
  | some guest =>
    refine ⟨⟨ms, rfl⟩, ?_⟩
    rintro id ⟨⟩
    exact ⟨guest, rfl, rfl⟩

/-! ### The Guest owner -/

/-- As long as no request takes the sentinel email for itself, nobody ever gets a token or an API
key for the user that `getGuestUserId` returned. -/
theorem guest_never_claimed {now j : Nat} {h₁ h₂ : List (Served (mikrouli P))}
    {w₁ w₂ : World} {id : String}
    (before : Session (guestRuns P SparesGuest) (World.empty now) h₁ w₁)
    (found : Runs (machine P) (alone P fun _ => True) j (UsersService.getGuestUserId none) w₁
      (.ok id) w₂)
    (later : Session (guestRuns P SparesGuest) w₂ h₂ w) : w.Unclaimed id := by
  have safe₁ := (World.GuestSafe.initial now).session before
  obtain ⟨⟨ms, rfl⟩, returned⟩ := alone_getGuestUserId.runs found
  obtain ⟨guest, lookedUp, rfl⟩ := returned id rfl
  obtain ⟨row, sentinel⟩ := safe₁.settled.userByEmail.mp lookedUp
  -- the Guest row that was found stays, and so does its safety
  have safe := (safe₁.advance ms).session later
  exact safe.unclaimed _ (guestRuns_user_kept later row) sentinel

/-- The world after the migration, on empty stores. -/
def seeded : World :=
  { World.empty 5000 with
    users := ⟨[⟨⟨"guest", GUEST_SENTINEL_EMAIL, none, none, none, 5000⟩, none⟩],
      by simp [userKeys]⟩
    drawn := ["guest"] }

theorem seed_empty : (World.empty 5000).seedGuestUser "guest" = some seeded := by rfl

theorem get_seeded : Runs (machine Platform.plain) (alone Platform.plain fun _ => True) 0
    (UsersService.getGuestUserId none) seeded (.ok "guest") seeded := by
  have replayed : replay (machine Platform.plain) 0 (UsersService.getGuestUserId none) [{}] seeded =
      some (.ok "guest", seeded) := by with_unfolding_all rfl
  exact runs_of_replay alone_still (fun _ _ _ _ => trivial) replayed

/-- Whatever a line chooses may happen. -/
theorem guestRuns_fair {guard : World → Req → Prop} (line : Line (mikrouli Platform.plain)) :
    line.Fair (guestRuns Platform.plain guard) := by
  cases line with
  | serve r chs => exact fun _ _ _ _ => trivial
  | tick ms => exact fun w => .inl ⟨ms, rfl⟩

/-- A script of requests, each of which the guard admits. -/
theorem exists_guestRun (guard : World → Req → Prop) (ready : World → Req → Bool)
    (sound : ∀ w r, ready w r = true → Authentic Platform.plain w r ∧ guard w r)
    (lines : List (Line (mikrouli Platform.plain))) (w₀ : World) (test : World → Bool)
    (passed : ((recite (fun _ w r => ready w r) lines [] w₀).any fun x => test x.2) = true) :
    ∃ h w, Session (guestRuns Platform.plain guard) w₀ h w ∧ test w = true := by
  refine exists_session_of_recite alone_still ?_ w₀ lines (fun line _ => guestRuns_fair line)
    (fun _ w => test w) passed
  exact fun _ w r admitted => sound w r admitted

def isPasswordRequest : Req → Bool
  | .register _ _ | .login _ _ => true
  | _ => false

/-- A registration with the sentinel email and one with another email, then a login to that. -/
def lateRequests : List (Line (mikrouli Platform.plain)) :=
  [.serve (.register GUEST_SENTINEL_EMAIL "Secret123")
    [{ draw := "salt" }, { draw := "x" }, {}, { draw := "decoy" }, {}],
   .serve (.register "u@ab.cd" "Secret123") [{ draw := "salt" }, { draw := "user" }, {}],
   .serve (.login "u@ab.cd" "Secret123") [{}, { draw := "j" }, { draw := "f" }, {}, {}, {}]]

/-- A password request, and no registration of the sentinel email before there is its row. -/
def sparesGuest (w : World) : Req → Bool
  | .register email _ => decide (email = GUEST_SENTINEL_EMAIL →
      ∃ v ∈ w.users.rows, v.row.email = GUEST_SENTINEL_EMAIL)
  | .login _ _ => true
  | _ => false

theorem sparesGuest_sound (w : World) (r : Req) (spares : sparesGuest w r = true) :
    Authentic Platform.plain w r ∧ SparesGuest w r := by
  cases r with
  | register email password =>
    refine ⟨trivial, ?_⟩
    simpa only [SparesGuest, sparesGuest, decide_eq_true_eq] using spares
  | login email password => exact ⟨trivial, trivial⟩
  | _ => cases spares

theorem guest_never_claimed_decoy :
    ∃ h w, Session (guestRuns Platform.plain SparesGuest) seeded h w ∧
      (∃ t ∈ w.signed, t.payload.sub = "user") ∧ w.Unclaimed "guest" := by
  obtain ⟨h, w, session, issued⟩ := exists_guestRun SparesGuest sparesGuest sparesGuest_sound
    lateRequests seeded
    (fun w => decide (∃ t ∈ w.signed, t.payload.sub = "user")) (by decide +kernel)
  have before : Session (guestRuns Platform.plain SparesGuest) (World.empty 5000) [] seeded :=
    Session.nil.idle (.inr ⟨"guest", seed_empty⟩)
  exact ⟨h, w, session, of_decide_eq_true issued, guest_never_claimed before get_seeded session⟩

/-- The sentinel email is registered before the migration runs, so the migration does nothing. -/
def earlyRegistration : List (Line (mikrouli Platform.plain)) :=
  [.serve (.register GUEST_SENTINEL_EMAIL "Secret123")
    [{ draw := "salt" }, { draw := "guest" }, {}]]

def guestLogin : List (Line (mikrouli Platform.plain)) :=
  [.serve (.login GUEST_SENTINEL_EMAIL "Secret123")
    [{}, { draw := "j" }, { draw := "f" }, {}, {}, {}]]

/-- `getGuestUserId` returns the id of a row to which the login gets a token. -/
def opensGuest (w : World) : Bool :=
  (replay (machine Platform.plain) 0 (UsersService.getGuestUserId none) [{}] w).any
    fun (r, w₁) => decide (r = .ok "guest") &&
      (recite (V := mikrouli Platform.plain) (fun _ _ r => isPasswordRequest r) guestLogin [] w₁).any
        fun (_, w₂) => decide (∃ t ∈ w₂.signed, t.payload.sub = "guest")

/-- Whoever registers the sentinel email before the migration gets tokens for the Guest owner. -/
theorem guest_claimed :
    ¬∀ (now j : Nat) (h₁ h₂ : List (Served (mikrouli Platform.plain))) (w₁ w₂ w : World)
      (id : String),
      Session (guestRuns Platform.plain fun _ _ => True) (World.empty now) h₁ w₁ →
      Runs (machine Platform.plain) (alone Platform.plain fun _ => True) j
        (UsersService.getGuestUserId none) w₁ (.ok id) w₂ →
      Session (guestRuns Platform.plain fun _ _ => True) w₂ h₂ w → w.Unclaimed id := by
  intro never
  have admitted : ∀ (w : World) r, isPasswordRequest r = true →
      Authentic Platform.plain w r ∧ True := by
    intro w r password
    cases r with
    | register email password => exact ⟨trivial, trivial⟩
    | login email password => exact ⟨trivial, trivial⟩
    | _ => cases password
  obtain ⟨h₁, w₁, before, opened⟩ := exists_guestRun (fun _ _ => True) (fun _ r => isPasswordRequest r)
    admitted earlyRegistration (World.empty 5000)
    (fun w => (w.seedGuestUser "other").any opensGuest) (by decide +kernel)
  -- the migration finds the sentinel email taken and leaves the registrant's row
  obtain ⟨w₁', migrated, opened⟩ := (Option.any_eq_true _ _).mp opened
  have before := before.idle (.inr ⟨"other", migrated⟩)
  obtain ⟨r, w₂, found, opened⟩ :=
    exists_runs_of_replay alone_still _ (fun _ _ _ _ => trivial) _ opened
  simp only [Bool.and_eq_true, decide_eq_true_eq] at opened
  obtain ⟨rfl, opened⟩ := opened
  obtain ⟨h₂, w, later, issued⟩ := exists_guestRun (fun _ _ => True) (fun _ r => isPasswordRequest r)
    admitted guestLogin w₂
    (fun w => decide (∃ t ∈ w.signed, t.payload.sub = "guest")) opened
  obtain ⟨t, member, sub⟩ := of_decide_eq_true issued
  exact (never _ _ _ _ _ _ _ _ before found later).tokens t member sub

end Mikrouli
