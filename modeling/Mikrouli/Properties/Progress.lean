import Mikrouli.Lib.LockOrder
import Mikrouli.Properties.Provenance
import Mikrouli.Properties.SignIn

/-! Transactions take their locks in one order and every one of them ends, so no interleaving of
requests, faults and the clock brings the API to a halt. -/

namespace Mikrouli

open Async Store

variable {D : Deployment}

/-! ### Locks -/

/-- The tables in which a row that is not committed makes other transactions wait. -/
inductive Lock where
  | users
  | providerAccounts
  deriving DecidableEq

/-- The lock that an insertion takes, and may have to wait for. -/
def Cmd.lock? : Cmd → Option Lock
  | .insertUser _ _ => some .users
  | .saveProviderAccount _ _ => some .providerAccounts
  | _ => none

/-- The command ends its transaction, also where it fails. -/
def Cmd.releases : Cmd → Bool
  | .commit | .rollback => true
  | _ => false

/-- The thread has rows in the table that are not committed, after these events. -/
def holds (l : Lock) : HttpEvents D → Bool
  | [] => false
  | .call (.inl (.inl c)) res :: es =>
    !c.releases && (res.isOk && decide (c.lock? = some l) || holds l es)
  | _ :: es => holds l es

/-- Users are inserted first. -/
def Lock.later (l' l : Lock) : Prop := l = .users ∧ l' = .providerAccounts

/-- A lock is asked for by those that hold earlier ones only. -/
def Ordered (es : HttpEvents D) : httpApi.Cmd → Prop
  | .inl (.inl c) => ∀ l ∈ c.lock?, ∀ held, holds held es = true → l.later held
  | .inl (.inr _) | .inr _ => True

/-- No lock is held. -/
def Free (es : HttpEvents D) : Prop := ∀ l, holds l es = false

theorem Lock.later_wellFounded : WellFounded Lock.later := by
  have last : Acc Lock.later .providerAccounts := by
    refine ⟨_, fun l' after => ?_⟩
    cases after.1
  refine ⟨fun l => ?_⟩
  cases l with
  | users =>
    refine ⟨_, fun l' after => ?_⟩
    rw [after.2]
    exact last
  | providerAccounts => exact last

section Events

variable {es : HttpEvents D} {l : Lock}

theorem holds_quiet {c : Cmd} {res : Except AppError c.Res} (quiet : c.lock? = none)
    (stays : c.releases = false) : holds l (.call (.inl (.inl c)) res :: es) = holds l es := by
  simp [holds, quiet, stays]

theorem holds_released {c : Cmd} {res : Except AppError c.Res} (ends : c.releases = true) :
    holds l (.call (.inl (.inl c)) res :: es) = false := by
  simp [holds, ends]

theorem holds_taken {c : Cmd} {a : c.Res} (takes : c.lock? = some l) :
    holds l (.call (.inl (.inl c)) (.ok a) :: es) = true := by
  have stays : c.releases = false := by
    cases c <;> first | rfl | cases takes
  simp [holds, takes, stays, Except.isOk, Except.toBool]

theorem holds_other {c : Cmd} {res : Except AppError c.Res} (stays : c.releases = false)
    (other : c.lock? ≠ some l) : holds l (.call (.inl (.inl c)) res :: es) = holds l es := by
  simp [holds, stays, other]

/-- A lock that is held stays so until its transaction ends. -/
theorem holds_call {c : Cmd} {res : Except AppError c.Res} (held : holds l es = true)
    (stays : c.releases = false) : holds l (.call (.inl (.inl c)) res :: es) = true := by
  simp [holds, stays, held]

theorem Free.ordered {c : httpApi.Cmd} (free : Free es) : Ordered es c := by
  rcases c with (c | c) | c
  · intro l _ held taken
    rw [free held] at taken
    cases taken
  · trivial
  · trivial

end Events

/-! ### Programs that keep the order -/

section Closing

variable {α β : Type} {es : HttpEvents D}

/-- A command that inserts no row for others to wait for. -/
def lockless : httpApi.Cmd → Prop
  | .inl (.inl c) => c.lock? = none
  | .inl (.inr _) | .inr _ => True

/-- From a thread without locks the program keeps the order, and ends without locks, whether it
returns or throws. -/
def Closes (D : Deployment) (p : HttpProg α) : Prop :=
  ∀ es : HttpEvents D, Free es → Along Ordered (fun es' _ => Free es') p es

theorem closes_only {p : HttpProg α} (only : p.Only lockless) : Closes D p := by
  intro es free
  refine Along.of_only only (K := Free) ?_ (fun _ _ free => free) free
  rintro es c calm free
  refine ⟨free.ordered, fun res _ l => ?_⟩
  rcases c with (c | c) | c
  · cases ends : c.releases with
    | true => exact holds_released ends
    | false => rw [holds_quiet calm ends, free l]
  · exact free l
  · exact free l

theorem Closes.bind {p : HttpProg α} {f : α → HttpProg β} (first : Closes D p)
    (next : ∀ a, Closes D (f a)) : Closes D (p >>= f) := by
  intro es free
  refine Along.bind ((first es free).mono fun es' r free' => ?_)
  cases r with
  | ok a => exact next a es' free'
  | error e => exact free'

theorem Closes.tryCatch {p : HttpProg α} {h : AppError → HttpProg α} (first : Closes D p)
    (handler : ∀ e, Closes D (h e)) : Closes D (p.tryCatch h) := by
  intro es free
  refine Along.tryCatch ((first es free).mono fun es' r free' => ?_)
  cases r with
  | ok a => exact free'
  | error e => exact handler e es' free'

theorem Closes.map {p : HttpProg α} {f : α → β} (first : Closes D p) : Closes D (f <$> p) :=
  fun es free => Along.map ((first es free).mono fun _ _ free' => free')

theorem closes_done (a : α) : Closes D (.done a : HttpProg α) := fun _ free => free

theorem closes_fail (e : AppError) : Closes D (.fail e : HttpProg α) := fun _ free => free

theorem ordered_await {c : Cmd} {ψ : HttpEvents D → Except AppError c.Res → Prop}
    (pre : Ordered es (.inl (.inl c))) (post : ∀ res, ψ (.call (.inl (.inl c)) res :: es) res) :
    Along Ordered ψ (within (await c)) es := by
  rw [within, await, Prog.lift_perform, Prog.lift_perform]
  exact Along.perform (S := httpApi) pre fun res _ => post res

theorem closes_within {p : Prog α} (only : p.Only fun c : Cmd => c.lock? = none) : Closes D (within p) :=
  by
  refine closes_only (only_within (only.mono fun c quiet => ?_))
  exact quiet

/-- Whatever locks the body has taken, after the commit or the rollback there are none. -/
theorem closes_transaction {body : Prog α}
    (ordered : ∀ es : HttpEvents D, Free es → Along Ordered (fun _ _ => True) (within body) es) :
    Closes D (within (transaction body)) := by
  intro es free
  rw [transaction, within_tryCatch, within_bind]
  -- the rollback ends the transaction whatever the error was
  have undone : ∀ (e : AppError) (es' : HttpEvents D), Along Ordered (fun es' _ => Free es')
      (within (await .rollback >>= fun _ => throw e : Prog α)) es' := by
    intro e es'
    rw [within_bind]
    refine Along.bind (ordered_await (by rintro l ⟨⟩) fun res => ?_)
    cases res with
    | ok a => exact fun l => holds_released rfl
    | error e => exact fun l => holds_released rfl
  refine Along.tryCatch (Along.bind ((ordered es free).mono fun es₁ r _ => ?_))
  cases r with
  | error e => exact undone e es₁
  | ok a =>
    change Along _ _ (within (await .commit >>= fun _ => pure a)) es₁
    rw [within_bind]
    refine Along.bind (ordered_await (by rintro l ⟨⟩) fun res => ?_)
    cases res with
    | ok _ => exact fun l => holds_released rfl
    | error e => exact undone e _

theorem closes_register {email password : String} :
    Closes D (within (AuthService.register email password)) := by
  rw [AuthService.register, within_bind]
  refine .bind (closes_within (.perform rfl)) fun passwordHash => ?_
  rw [within_bind, UsersService.create, saveOrDecoy, within_tryCatch]
  refine .bind (.tryCatch (closes_transaction fun es free => ?_) fun e => ?_) fun user => ?_
  · exact ordered_await free.ordered fun _ => trivial
  · split
    · exact closes_within (.bind (.perform rfl) fun _ => .bind (.perform rfl) fun _ => trivial)
    · exact closes_fail e
  · exact closes_done _

/-- The lookups of an identity change no lock. -/
theorem ordered_lookup {c : Cmd} (quiet : c.lock? = none) (stays : c.releases = false) :
    Along Ordered (fun es' _ => ∀ l, holds l es' = holds l es) (within (await c)) es := by
  refine ordered_await ?_ fun res l => holds_quiet quiet stays
  intro l taken
  rw [quiet] at taken
  cases taken

/-- A provider account is saved where none is held yet, before or after a user. -/
theorem ordered_save {providerUserId userId : String}
    (none : holds .providerAccounts es = false) :
    Along Ordered (fun _ _ => True)
      (within (await (.saveProviderAccount providerUserId userId))) es := by
  refine ordered_await ?_ fun _ => trivial
  rintro l ⟨⟩ held taken
  cases held with
  | users => exact ⟨rfl, rfl⟩
  | providerAccounts =>
    rw [none] at taken
    cases taken

theorem ordered_resolveProviderIdentity {identity : GithubIdentity} (free : Free es) :
    Along Ordered (fun _ _ => True) (within (resolveProviderIdentity identity)) es := by
  have saved : ∀ (user : User) (es' : HttpEvents D), holds .providerAccounts es' = false →
      Along Ordered (fun _ _ => True) (within (do
        let _ ← await (.saveProviderAccount identity.providerUserId user.id)
        pure user)) es' := by
    intro user es' none
    rw [within_bind]
    refine Along.bind ((ordered_save none).mono fun _ r _ => ?_)
    cases r <;> trivial
  rw [resolveProviderIdentity, within_bind]
  refine Along.bind ((ordered_lookup rfl rfl).mono fun es₁ r same₁ => ?_)
  replace free : Free es₁ := fun l => (same₁ l).trans (free l)
  cases r with
  | error e => trivial
  | ok account =>
    cases account with
    | some existing =>
      change Along _ _ (within (await (.findUserById existing.userId) >>= _)) es₁
      rw [within_bind]
      refine Along.bind ((ordered_lookup rfl rfl).mono fun es₂ r _ => ?_)
      rcases r with e | (_ | user) <;> trivial
    | none =>
      change Along _ _ (within (await (.findUserByEmail identity.email) >>= _)) es₁
      rw [within_bind]
      refine Along.bind ((ordered_lookup rfl rfl).mono fun es₂ r same₂ => ?_)
      replace free : Free es₂ := fun l => (same₂ l).trans (free l)
      rcases r with e | (_ | user)
      · trivial
      · change Along _ _ (within (await (.insertUser identity.email none) >>= _)) es₂
        rw [within_bind]
        refine Along.bind (ordered_await free.ordered fun res => ?_)
        cases res with
        | error e => trivial
        | ok created =>
          change Along _ _ (within (await (.findUserByEmail identity.email) >>= _)) _
          rw [within_bind]
          refine Along.bind ((ordered_lookup rfl rfl).mono fun es₃ r same₃ => ?_)
          rcases r with e | (_ | inserted)
          · trivial
          · trivial
          · refine saved inserted es₃ ?_
            rw [same₃, holds_other rfl (by simp [Cmd.lock?])]
            exact free _
      · exact saved user es₂ (free _)

theorem closes_findOrCreateFromProvider {identity : GithubIdentity} :
    Closes D (within (UsersService.findOrCreateFromProvider identity)) := by
  have resolved : Closes D (within (transaction (resolveProviderIdentity identity))) :=
    closes_transaction fun _ free => ordered_resolveProviderIdentity free
  rw [UsersService.findOrCreateFromProvider, within_tryCatch]
  refine .tryCatch resolved fun e => ?_
  split
  · exact resolved
  · exact closes_fail e

end Closing

/-! ### Routes -/

section Routes

variable {α : Type} {req : HttpRequest}

theorem Req.lock?_of_mayIssue {r : Req} (plain : r.onAccounts = false) {c : Cmd}
    (may : r.MayIssue c) : c.lock? = none := by
  cases c with
  | insertUser email passwordHash => exact absurd may (by simp [Req.MayIssue, plain])
  | saveProviderAccount providerUserId userId => exact absurd may (by simp [Req.MayIssue, plain])
  | _ => rfl

theorem closes_handle {r : Req} (plain : r.onAccounts = false) : Closes D (handle D (.ok r)) :=
  (closes_within ((serve_only D.platform r).mono fun _ may => Req.lock?_of_mayIssue plain may)).map

/-- Behind its pipe a body becomes no request for accounts. -/
theorem closes_received {received : Except HttpException Instance} {request : Instance → Req}
    (plain : ∀ dto, (request dto).onAccounts = false) :
    Closes D (handle D (do
      let dto ← received.mapError Rejection.http
      pure (request dto))) := by
  cases received with
  | error exc => exact closes_done _
  | ok dto => exact closes_handle (plain dto)

theorem closes_jwtAuthGuard : Closes D (JwtAuthGuard.run D req) := by
  unfold JwtAuthGuard.run
  split
  · refine .bind (closes_within (.bind (.tryCatch (.perform rfl) fun _ => trivial) fun payload => ?_))
      fun user => closes_done _
    unfold JwtStrategy.validate
    split <;> trivial
  · exact closes_fail _

theorem closes_apiKeyAuthGuard : Closes D (ApiKeyAuthGuard.run D req) := by
  unfold ApiKeyAuthGuard.run
  split
  · exact closes_fail _
  · refine .bind (closes_within (only_validate rfl (fun _ => rfl) fun _ _ => rfl)) fun owner => ?_
    cases owner with
    | none => exact closes_fail _
    | some userId => exact closes_done _

theorem closes_bearerOrApiKeyGuard : Closes D (BearerOrApiKeyGuard.run D req) := by
  unfold BearerOrApiKeyGuard.run
  split
  · exact closes_jwtAuthGuard
  · exact closes_apiKeyAuthGuard
  · exact closes_fail _
  · exact closes_fail _

theorem closes_awaitHttp (c : HttpCmd) : Closes D (awaitHttp c) := closes_only (.perform trivial)

theorem closes_guestOrAuthenticatedGuard {process : Nat} :
    Closes D (GuestOrAuthenticatedGuard.run D process req) := by
  unfold GuestOrAuthenticatedGuard.run
  split
  · exact .bind closes_bearerOrApiKeyGuard fun id => closes_done _
  · split
    · exact closes_fail _
    split
    · exact closes_fail _
    · refine .bind ?_ fun guestUserId => closes_done _
      unfold rememberedGuestUserId
      refine .bind (closes_awaitHttp _) fun cached => .bind (closes_within ?_) fun id => ?_
      · cases cached with
        | some id => trivial
        | none =>
          refine .bind (.perform rfl) fun guest => ?_
          cases guest <;> trivial
      · simp only
        split
        · exact .bind (closes_awaitHttp _) fun _ => closes_done _
        · exact closes_done _

theorem closes_filtered {handler : Prog Handled} {filter : Handled → HttpResponse}
    (closes : Closes D (within handler)) : Closes D (within (filtered handler filter)) := by
  rw [filtered, Prog.map_eq, within_bind, within_tryCatch]
  exact .bind (.tryCatch closes fun e => closes_done _) fun _ => closes_done _

theorem only_withCookies {cookies : List CookieHeader} {rest : Prog Returned}
    (only : rest.Only fun c : Cmd => c.lock? = none) :
    (withCookies cookies rest).Only fun c : Cmd => c.lock? = none :=
  .tryCatch (.bind only fun _ => trivial) fun _ => trivial

theorem only_issue (user : User) :
    (AuthService.issueTokens D.platform user).Only fun c : Cmd => c.lock? = none :=
  only_issueTokens rfl (fun _ _ _ => rfl) fun _ _ _ => rfl

theorem only_githubAuthorize :
    AuthController.githubAuthorize.Only fun c : Cmd => c.lock? = none := by
  refine .tryCatch (.bind (.perform rfl) fun token => .bind ?_ fun _ => trivial) fun _ => trivial
  exact only_setWithOptionalTtl fun _ => rfl

theorem closes_githubCallback {query : CallbackQuery} :
    Closes D (within (SessionRoutes.githubCallback D.platform D.authorizeUrl query)) := by
  unfold SessionRoutes.githubCallback
  split
  · exact closes_fail _
  · rw [within_bind]
    refine .bind ?_ fun issued => closes_within (only_withCookies trivial)
    rw [AuthController.githubCallback, within_bind]
    refine .bind (closes_within (.tryCatch (.bind (.perform rfl) fun stored => ?_) fun _ => trivial))
      fun ok => ?_
    · cases stored <;> trivial
    split
    · exact closes_fail _
    split
    · exact closes_fail _
    next identity =>
      rw [AuthService.loginWithGithub, within_bind]
      exact .bind closes_findOrCreateFromProvider fun user => closes_within (only_issue user)
  · exact closes_within (.bind only_githubAuthorize fun _ => trivial)

theorem closes_session {request : SessionRequest} :
    Closes D (within (request.respond D.texts D.isProd D.platform D.authorizeUrl)) := by
  cases request with
  | login body =>
    simp only [SessionRequest.respond]
    split
    · exact closes_done _
    · refine closes_filtered (closes_within (.bind (only_validateCredentials rfl) fun user => ?_))
      cases user with
      | none => trivial
      | some user => exact .bind (only_issue user) fun _ => only_withCookies trivial
  | refresh token =>
    refine closes_filtered (closes_within ?_)
    cases token with
    | none => trivial
    | some token =>
      refine .bind (only_rotateRefresh (fun _ => rfl) (fun _ => rfl) (fun _ => rfl) (fun _ => rfl)
        rfl (fun _ _ _ => rfl) fun _ _ _ => rfl) fun issued => only_withCookies ?_
      refine .bind (.perform rfl) fun user => ?_
      cases user <;> trivial
  | logout token =>
    refine closes_filtered (closes_within ?_)
    cases token with
    | none => exact only_withCookies trivial
    | some token =>
      refine .bind (.tryCatch (only_revokeRefresh (fun _ => rfl) fun _ => rfl) fun _ => trivial) ?_
      exact fun _ => only_withCookies trivial
  | githubCallback query => exact closes_filtered closes_githubCallback

theorem closes_registration {body : Json} :
    Closes D (within ((AuthRequest.register body).respond D.texts D.isProd D.platform)) := by
  unfold AuthRequest.respond
  cases received : (AuthRequest.register body).receive D.texts with
  | error exc => exact closes_done _
  | ok credentials =>
    obtain ⟨email, password, rfl⟩ : ∃ email password, credentials = .register email password := by
      simp only [AuthRequest.receive] at received
      cases transformed : ValidationPipe.transform (RegisterDto D.texts) body with
      | error exc =>
        rw [transformed] at received
        cases received
      | ok dto =>
        rw [transformed] at received
        cases received
        exact ⟨_, _, rfl⟩
    simp only [Credentials.respond, Credentials.handle, AuthController.handleRegister]
    rw [within_tryCatch, within_bind]
    exact .tryCatch (.bind closes_register fun _ => closes_done _) fun _ => closes_done _

theorem closes_getStats {slug userId : String} :
    Closes D (Prog.lift (StatsController.getStats slug userId)) := by
  refine closes_only (.lift (.bind (.lift (.bind (.perform rfl) fun link => ?_)) fun _ => ?_))
  · cases link with
    | none => trivial
    | some link =>
      simp only
      split <;> trivial
  · refine .bind (.bind (.perform trivial) fun _ => .bind (.perform trivial) fun _ => ?_) fun _ => trivial
    exact .bind (.perform trivial) fun _ => .bind (.perform trivial) fun _ => trivial

theorem closes_redirect {slug : String} {ip userAgent : Option String} :
    Closes D (Prog.lift (RedirectController.redirect D.platform slug ip userAgent)) := by
  unfold RedirectController.redirect
  split
  · exact closes_done _
  · refine closes_only (.lift (.bind (.lift (only_resolve rfl rfl rfl fun _ _ => rfl))
      fun resolution => .bind ?_ fun _ => trivial))
    cases resolution with
    | active url => exact .tryCatch (.perform trivial) fun _ => trivial
    | expired => trivial
    | notFound => trivial

theorem closes_createShortLink {userId : String} {arguments : Json} :
    Closes D (handle D (receive D.platform D.validators (.createShortLink userId arguments))) := by
  simp only [receive]
  split
  · exact closes_done _
  · exact closes_received fun _ => rfl

/-- Every route keeps the order of the locks, and leaves none behind. -/
theorem closes_respond (r : HttpReq) : Closes D (r.respond D) := by
  cases r with
  | register body => exact closes_registration.map
  | session request => exact closes_session.map
  | githubAuthorize => exact .bind (closes_within only_githubAuthorize) fun token => closes_done _
  | me req =>
    refine .bind closes_jwtAuthGuard fun userId => .map (closes_within (.bind (.perform rfl) ?_))
    intro user
    cases user <;> trivial
  | createLink process req body =>
    exact .bind closes_guestOrAuthenticatedGuard fun user => closes_received fun _ => rfl
  | listLinks req =>
    refine .bind closes_bearerOrApiKeyGuard fun userId => .bind (closes_awaitHttp _) fun links => ?_
    exact closes_done _
  | removeLink req slug => exact .bind closes_bearerOrApiKeyGuard fun userId => closes_handle rfl
  | updateLink req slug body =>
    exact .bind closes_bearerOrApiKeyGuard fun userId => closes_received fun _ => rfl
  | stats req slug => exact .bind closes_bearerOrApiKeyGuard fun userId => closes_getStats.map
  | createKey req body => exact .bind closes_jwtAuthGuard fun userId => closes_received fun _ => rfl
  | listKeys req => exact .bind closes_jwtAuthGuard fun userId => closes_handle rfl
  | revokeKey req id => exact .bind closes_jwtAuthGuard fun userId => closes_handle rfl
  | usage req =>
    refine .bind closes_jwtAuthGuard fun userId => .map (closes_within ?_)
    refine .bind (only_findOneOrFail rfl) fun user => .bind (.bind (.perform rfl) fun _ => .perform rfl)
      fun links => .bind (.bind (.perform rfl) fun _ => .perform rfl) fun keys => ?_
    exact .bind (.perform rfl) fun now => trivial
  | createShortLink req arguments =>
    exact .bind closes_apiKeyAuthGuard fun userId => closes_createShortLink
  | redirect slug ip userAgent => exact closes_redirect.map
  | cleanup => exact closes_handle rfl

end Routes

/-! ### Whose rows are not committed -/

/-- The order of the locks, as a contract of every thread. -/
def locking (D : Deployment) : Contract (mikrouliHttp D) :=
  .ofHistory Ordered fun _ es _ => Free es

theorem locking_sound {G : Guard (mikrouliHttp D)} : (locking D).Sound G := by
  refine Contract.ofHistory_sound fun r => closes_respond r _ ?_
  intro l
  rfl

/-- The transaction has a row in the table that is not committed. -/
def Opened {V : Type} {keys : List (Versioned V → String)} (t : Table (Versioned V) keys)
    (k : Nat) : Prop := ∃ v ∈ t.rows, v.tx = some k

def World.opened (w : World) (k : Nat) : Lock → Prop
  | .users => Opened w.users k
  | .providerAccounts => Opened w.providerAccounts k

section Rows

variable {V : Type} {keys : List (Versioned V → String)} {t t' : Table (Versioned V) keys}
  {P : Platform} {i k : Nat} {c : Cmd} {ch : Choice} {w w' : World} {res : Except AppError c.Res}
  {l : Lock}

theorem Opened.of_commit (kept : ∀ k ∈ keys, ∀ v, k (World.commitRows i v) = k v)
    (opened : Opened (t.update (fun _ => true) (World.commitRows i) kept) k) :
    Opened t k ∧ k ≠ i := by
  obtain ⟨v, member, tx⟩ := opened
  obtain ⟨v', there, rfl⟩ := Table.mem_update.mp member
  by_cases own : v'.tx = some i
  · simp [World.commitRows, own] at tx
  · simp only [World.commitRows, own, if_true, if_false] at tx
    refine ⟨⟨v', there, tx⟩, ?_⟩
    rintro rfl
    exact own tx

theorem Opened.of_rollback (opened : Opened (t.delete fun v => decide (v.tx = some i)) k) :
    Opened t k ∧ k ≠ i := by
  obtain ⟨v, member, tx⟩ := opened
  rw [Table.mem_delete, decide_eq_false_iff_not] at member
  refine ⟨⟨v, member.1, tx⟩, ?_⟩
  rintro rfl
  exact member.2 tx

theorem Opened.of_cons {row : V} (rows : t'.rows = ⟨row, some i⟩ :: t.rows) (opened : Opened t' k) :
    Opened t k ∨ k = i := by
  obtain ⟨v, member, tx⟩ := opened
  rw [rows] at member
  rcases List.mem_cons.mp member with rfl | old
  · exact .inr (Option.some.inj tx).symm
  · exact .inl ⟨v, old, tx⟩

theorem opened_of_commit (opened : (w.commit i).opened k l) : w.opened k l ∧ k ≠ i := by
  cases l with
  | users => exact Opened.of_commit (World.commitRows_userKeys i) opened
  | providerAccounts => exact Opened.of_commit (World.commitRows_providerKeys i) opened

theorem opened_of_rollback (opened : (w.rollback i).opened k l) : w.opened k l ∧ k ≠ i := by
  cases l with
  | users => exact Opened.of_rollback opened
  | providerAccounts => exact Opened.of_rollback opened

/-- A row that is not committed after a command was there before, and its transaction goes on; or
the command has inserted it. -/
theorem opened_before (returned : exec P i c ch w = some (res, w')) (opened : w'.opened k l) :
    (w.opened k l ∧ (k = i → c.releases = false)) ∨
      k = i ∧ c.lock? = some l ∧ ∃ a, res = .ok a := by
  have ended : (w.opened k l ∧ k ≠ i) → (w.opened k l ∧ (k = i → c.releases = false)) :=
    fun before => ⟨before.1, fun same => absurd same before.2⟩
  cases c with
  | insertUser email passwordHash =>
    obtain ⟨accounts, ⟨-, -, rfl⟩ | ⟨-, -, ⟨-, users, -⟩ | ⟨user, -, rfl, users⟩⟩⟩ :=
      exec_insertUser returned
    · exact .inl ⟨opened, fun _ => rfl⟩
    · refine .inl ⟨?_, fun _ => rfl⟩
      cases l <;> simpa only [World.opened, accounts, users] using opened
    · cases l with
      | users =>
        rcases Opened.of_cons users opened with before | same
        · exact .inl ⟨before, fun _ => rfl⟩
        · exact .inr ⟨same, rfl, user, rfl⟩
      | providerAccounts =>
        refine .inl ⟨?_, fun _ => rfl⟩
        simpa only [World.opened, accounts] using opened
  | saveProviderAccount providerUserId userId =>
    obtain ⟨users, ⟨-, -, rfl⟩ | ⟨-, -, ⟨-, accounts, -⟩ | ⟨account, -, rfl, accounts⟩⟩⟩ :=
      exec_saveProviderAccount returned
    · exact .inl ⟨opened, fun _ => rfl⟩
    · refine .inl ⟨?_, fun _ => rfl⟩
      cases l <;> simpa only [World.opened, accounts, users] using opened
    · cases l with
      | users =>
        refine .inl ⟨?_, fun _ => rfl⟩
        simpa only [World.opened, users] using opened
      | providerAccounts =>
        rcases Opened.of_cons accounts opened with before | same
        · exact .inl ⟨before, fun _ => rfl⟩
        · exact .inr ⟨same, rfl, account, rfl⟩
  | commit =>
    obtain ⟨-, -, rfl⟩ | ⟨-, -, rfl⟩ := exec_commit returned
    · exact .inl (ended (opened_of_rollback opened))
    · exact .inl (ended (opened_of_commit opened))
  | rollback =>
    obtain ⟨rfl, -⟩ := exec_rollback returned
    exact .inl (ended (opened_of_rollback opened))
  | _ =>
    refine .inl ⟨?_, fun _ => rfl⟩
    have frame := exec_frame returned
    cases l with
    | users => simpa only [World.opened, frame.users rfl] using opened
    | providerAccounts => simpa only [World.opened, frame.providerAccounts rfl] using opened

end Rows

/-- A row that is not committed belongs to a thread that holds the lock of its table. -/
def Owned (σ : Shared (mikrouliHttp D)) : Prop :=
  ∀ k l, σ.world.1.1.opened k l → holds l (σ.own k) = true

theorem Owned.acts {G : Guard (mikrouliHttp D)} {σ σ' : Shared (mikrouliHttp D)} (owned : Owned σ)
    (acts : (locking D).Acts G σ σ') : Owned σ' := by
  cases acts with
  | start n r fresh allowed =>
    intro k l opened
    rw [Shared.started_own]
    split
    · exact owned k l opened
    · exact owned k l opened
  | @call i c ch res w pre returned allowed =>
    intro k l opened
    rw [Shared.called_world] at opened
    rw [Shared.called_own]
    rcases c with (c | c) | c
    · rcases opened_before (exec_inl_inl returned) opened with ⟨before, stays⟩ | ⟨rfl, takes, a, rfl⟩
      · have held := owned k l before
        split
        next same => exact holds_call held (stays same.symm)
        · exact held
      · rw [if_pos rfl]
        exact holds_taken takes
    · rw [exec_inl_inr returned] at opened
      split
      · exact owned k l opened
      · exact owned k l opened
    · rw [exec_inr returned] at opened
      split
      · exact owned k l opened
      · exact owned k l opened
  | env e allowed => cases e <;> exact owned

/-! ### No deadlock -/

/-- The random source has drawn all there is of the 2^256 secrets, or of the 16^64 state tokens. -/
def World.Exhausted (w : World) : Prop :=
  (∀ s, isSecret s = true → s ∈ w.drawn) ∨ ∀ s, isHexToken s = true → s ∈ w.drawn

section Commands

variable {P : Platform} {i : Nat} {w : World}

theorem drawFresh_of_form (form : String → Bool) (empty : form "" = false)
    (left : ∃ s, form s = true ∧ s ∉ w.drawn) :
    ∃ s, form s = true ∧ w.drawFresh s = some { w with drawn := s :: w.drawn } := by
  obtain ⟨s, shaped, new⟩ := left
  refine ⟨s, shaped, drawFresh_eq_some.mpr ⟨⟨?_, new⟩, rfl⟩⟩
  rintro rfl
  rw [empty] at shaped
  cases shaped

/-- A command that inserts no row for others to wait for can always complete. -/
theorem canRun_of_lockless {c : Cmd} (quiet : c.lock? = none) (left : ¬w.Exhausted) :
    CanRun P i c w := by
  rw [World.Exhausted, not_or] at left
  push Not at left
  cases c with
  | insertUser email passwordHash | saveProviderAccount providerUserId userId => cases quiet
  | randomUUID =>
    obtain ⟨draw, fresh⟩ := exists_drawFresh w
    exact ⟨{ draw := draw }, .ok draw, _, rfl, by simp only [exec, fresh]; rfl⟩
  | randomSecret =>
    obtain ⟨draw, shaped, fresh⟩ := drawFresh_of_form isSecret rfl left.1
    exact ⟨{ draw := draw }, .ok draw, _, rfl, by simp only [exec, shaped, fresh]; rfl⟩
  | randomState =>
    obtain ⟨draw, shaped, fresh⟩ := drawFresh_of_form isHexToken rfl left.2
    exact ⟨{ draw := draw }, .ok draw, _, rfl, by simp only [exec, shaped, fresh]; rfl⟩
  | generateSlug =>
    have slug : asSlug "000000" = some ⟨"000000", rfl⟩ := by decide
    refine ⟨{ draw := "000000" }, .ok ⟨"000000", rfl⟩, w, rfl, ?_⟩
    simp only [exec, slug]
  | verify secret token =>
    refine ⟨{}, ?_⟩
    cases token with
    | other text => simp [exec]
    | jwt t =>
      simp only [exec]
      split
      · exact ⟨_, _, trivial, rfl⟩
      · exact ⟨_, _, trivial, rfl⟩
  | insertLinkWithOutbox fields =>
    refine ⟨{}, ?_⟩
    simp only [exec]
    split
    · exact ⟨_, _, trivial, rfl⟩
    · exact ⟨_, _, trivial, rfl⟩
  | findExpiredLinks now take =>
    -- the first rows of those that have expired
    generalize found : (w.links.rows.filter fun l =>
      l.expiresAt.any fun x => decide (x < (now : Int))) = expired
    have batch : w.isExpiredBatch now take (expired.take take) = true := by
      have distinct : expired.Nodup := found ▸ (List.Nodup.of_map _ (w.links.unique Link.slugKey (by simp))).filter _
      rw [World.isExpiredBatch, decide_eq_true_eq, found, List.length_take]
      exact ⟨distinct.sublist (List.take_sublist _ _), fun l => List.mem_of_mem_take, rfl⟩
    exact ⟨{ batch := expired.take take }, .ok (expired.take take), w, rfl, by simp [exec, batch]⟩
  | saveApiKey userId label keyHash keyPrefix =>
    obtain ⟨draw, fresh⟩ := exists_drawFresh w
    refine ⟨{ draw := draw }, ?_⟩
    simp only [exec, Option.isSome_none, Bool.false_eq_true, ↓reduceIte, fresh]
    split
    · exact ⟨_, _, trivial, rfl⟩
    · exact ⟨_, _, trivial, rfl⟩
  | findLiveApiKey keyPrefix =>
    cases found : w.apiKeys.rows.find? fun k : ApiKey =>
        decide (bpchar k.keyPrefix = bpchar keyPrefix) && decide (k.revokedAt = none) with
    | none =>
      have absent := List.any_eq_false.mpr fun k member => List.find?_eq_none.mp found k member
      exact ⟨{}, .ok none, w, rfl, by simp only [exec, absent]; rfl⟩
    | some k =>
      have live := List.find?_some found
      have member := List.mem_of_find?_eq_some found
      refine ⟨{ pick := some k }, .ok (some k), w, rfl, ?_⟩
      simp only [exec, live, member]
      rfl
  | _ =>
    refine ⟨{}, ?_⟩
    simp [exec]

/-- The rows of a user in the order of the list. -/
theorem exists_linksOf (userId : String) : ∃ links, w.isLinksOf userId links = true := by
  generalize found : (w.links.rows.filter fun l => decide (l.userId = userId)) = own
  have newest : ∀ a b : Link, decide (b.createdAt ≤ a.createdAt) = true ∨
      decide (a.createdAt ≤ b.createdAt) = true := by
    intro a b
    simp only [decide_eq_true_eq]
    omega
  refine ⟨own.mergeSort fun a b => decide (b.createdAt ≤ a.createdAt), ?_⟩
  rw [World.isLinksOf, found, Bool.and_eq_true, decide_eq_true_eq, decide_eq_true_eq]
  refine ⟨List.mergeSort_perm _ _, ?_⟩
  refine (List.pairwise_mergeSort (fun a b c => ?_) (fun a b => ?_) own).imp fun {a b} sorted => ?_
  · simp only [decide_eq_true_eq]
    omega
  · rw [Bool.or_eq_true]
    exact newest a b
  · exact of_decide_eq_true sorted

end Commands

/-- The command can complete, and without a fault. -/
def CanComplete (D : Deployment) (w : (mikrouliHttp D).World) (i : Nat) (c : httpApi.Cmd) : Prop :=
  ∃ ch res w', ch.fault = none ∧ (mikrouliHttp D).exec i c ch w = some (res, w')

/-- The lock for which the command may have to wait. -/
def wants : httpApi.Cmd → Lock → Prop
  | .inl (.inl c), l => c.lock? = some l
  | .inl (.inr _), _ | .inr _, _ => False

section Waiting

variable {w : (mikrouliHttp D).World} {i : Nat}

theorem ready_of_canRun {c : Cmd} (can : CanRun D.platform i c w.1.1) :
    CanComplete D w i (.inl (.inl c)) := by
  obtain ⟨ch, res, w', works, returned⟩ := can
  refine ⟨ch, res, ((w', w.1.2), w.2), works, ?_⟩
  simp [Machine.extend, returned]

theorem ready_clickHouse (c : ClickHouseCmd) : CanComplete D w i (.inl (.inr c)) := by
  cases c <;> exact ⟨{}, _, _, rfl, rfl⟩

theorem ready_http (c : HttpCmd) : CanComplete D w i (.inr c) := by
  cases c with
  | listLinks userId =>
    obtain ⟨links, listed⟩ := exists_linksOf (w := w.1.1) userId
    refine ⟨{ batch := links }, .ok links, w, rfl, ?_⟩
    simp only [Machine.extend, httpQuery, listed]
    rfl
  | cachedGuestUserId process => exact ⟨{}, _, _, rfl, rfl⟩
  | cacheGuestUserId process id => exact ⟨{}, _, _, rfl, rfl⟩

/-- A command waits for a row of its table only that another transaction has not committed. -/
theorem ready_or_wants (left : ¬w.1.1.Exhausted) (c : httpApi.Cmd) :
    CanComplete D w i c ∨ ∃ l k, wants c l ∧ w.1.1.opened k l := by
  rcases c with (c | c) | c
  · cases c with
    | insertUser email passwordHash =>
      rcases canRun_insertUser email passwordHash with can | ⟨v, member, k, tx, -⟩
      · exact .inl (ready_of_canRun can)
      · exact .inr ⟨.users, k, rfl, v, member, tx⟩
    | saveProviderAccount providerUserId userId =>
      rcases canRun_saveProviderAccount providerUserId userId with can | ⟨v, member, k, tx, -⟩
      · exact .inl (ready_of_canRun can)
      · exact .inr ⟨.providerAccounts, k, rfl, v, member, tx⟩
    | _ => exact .inl (ready_of_canRun (canRun_of_lockless rfl left))
  · exact .inl (ready_clickHouse c)
  · exact .inl (ready_http c)

variable {G : Guard (mikrouliHttp D)} {c : Config (mikrouliHttp D)}

/-- A thread that holds a lock has a command to run: it does not end before its transaction. -/
theorem awaits_of_holds (keeps : (locking D).Holds G c) {l : Lock}
    (held : holds l (c.shared.own i) = true) : ∃ cmd, c.Awaits i cmd := by
  have released : Free (c.shared.own i) → False := by
    intro free
    rw [free l] at held
    cases held
  cases own : c.shared.own i with
  | nil =>
    rw [own] at held
    cases held
  | cons e es =>
    have member : e ∈ c.shared.own i := by
      rw [own]
      exact List.mem_cons_self
    obtain ⟨entry, logged, rfl, -⟩ := Shared.mem_log_of_mem_own member
    obtain ⟨⟨r, p⟩, thread⟩ : ∃ t, c.threads[entry.thread]? = some t :=
      ⟨_, List.getElem?_eq_getElem (keeps.logged entry logged)⟩
    cases p with
    | await cmd k => exact ⟨cmd, r, k, thread⟩
    | done a => exact (released (keeps.history_ok thread)).elim
    | fail e => exact (released (keeps.history_error thread)).elim

/-- A thread asks for a lock that comes after those it holds. -/
theorem later_of_wants (keeps : (locking D).Holds G c) {l l' : Lock} {cmd : httpApi.Cmd}
    (held : holds l (c.shared.own i) = true) (awaits : c.Awaits i cmd) (wanted : wants cmd l') :
    l'.later l := by
  have ordered : Ordered (c.shared.own i) cmd := keeps.pre awaits
  rcases cmd with (cmd | cmd) | cmd
  · exact ordered l' wanted l held
  · cases wanted
  · cases wanted

/-- Where not every request has ended, some thread can run its next command. -/
theorem exists_ready_request (keeps : (locking D).Holds G c) (owned : Owned c.shared)
    (left : ¬c.shared.world.1.1.Exhausted) (running : ¬c.Quiescent) :
    ∃ i cmd, c.Awaits i cmd ∧ CanComplete D c.shared.world i cmd := by
  refine exists_ready (fun k l => holds l (c.shared.own k) = true) wants
    Lock.later_wellFounded ?_ ?_ ?_ running
  · rintro i cmd -
    rcases ready_or_wants left cmd with ready | ⟨l, k, wanted, opened⟩
    · exact .inl ready
    · exact .inr ⟨l, k, wanted, owned k l opened⟩
  · exact fun k l held => awaits_of_holds keeps held
  · exact fun k l cmd l' held awaits wanted => later_of_wants keeps held awaits wanted

end Waiting

/-! ### Runs -/

/-- The requests that are there run on, without faults. -/
def serving (D : Deployment) : Guard (mikrouliHttp D)
  | _, .call _ _ ch => ch.fault = none
  | _, .start _ | _, .env _ => False

/-- Every transaction belongs to a request that is still open, and the requests wait for one
another's rows in one order. -/
structure LocksInOrder (c : Config (mikrouliHttp D)) : Prop where
  ends : ∀ k l, c.shared.world.1.1.opened k l → ∃ cmd, c.Awaits k cmd
  ordered : ∀ k l l' cmd, c.shared.world.1.1.opened k l → c.Awaits k cmd → wants cmd l' → l'.later l

/-- The two facts that carry the argument from step to step. -/
structure LockInvariant (c : Config (mikrouliHttp D)) : Prop where
  keeps : (locking D).Holds anyStep c
  owned : Owned c.shared

section Invariant

variable {c c' : Config (mikrouliHttp D)}

theorem LockInvariant.step (locked : LockInvariant c) (step : Step anyStep c c') :
    LockInvariant c' :=
  ⟨locked.keeps.step locking_sound step, locked.owned.acts (locked.keeps.acts step)⟩

theorem LockInvariant.reach (locked : LockInvariant c) (reach : Reach anyStep c c') :
    LockInvariant c' := by
  induction reach with
  | refl => exact locked
  | tail _ step ih => exact ih.step step

theorem LockInvariant.inOrder (locked : LockInvariant c) : LocksInOrder c where
  ends k l opened := awaits_of_holds locked.keeps (locked.owned k l opened)
  ordered k l _ _ opened waits wanted :=
    later_of_wants locked.keeps (locked.owned k l opened) waits wanted

/-- Once every request has been answered, no transaction is open. -/
theorem LocksInOrder.settled (inOrder : LocksInOrder c) (quiet : c.Quiescent) (k : Nat) (l : Lock) :
    ¬c.shared.world.1.1.opened k l := by
  intro opened
  obtain ⟨cmd, r, rest, thread⟩ := inOrder.ends k l opened
  exact quiet _ (List.mem_of_getElem? thread)

end Invariant

/-- Whatever requests, faults and pauses there were, in whatever order, all requests that are still
open can be answered: no transaction is left behind, and none waits for itself. -/
theorem requests_complete {w₀ : (mikrouliHttp D).World} (settled : ∀ k l, ¬w₀.1.1.opened k l)
    {c : Config (mikrouliHttp D)} (reach : Reach anyStep (initial w₀) c) :
    LocksInOrder c ∧ ∃ c', Reach (serving D) c c' ∧
      ((c'.Quiescent ∧ ∀ k l, ¬c'.shared.world.1.1.opened k l) ∨
        c'.shared.world.1.1.Exhausted) := by
  have locked : LockInvariant c := LockInvariant.reach
    ⟨Contract.ofHistory_holds w₀, fun k l opened => absurd opened (settled k l)⟩ reach
  have completes : ∃ c', Reach (serving D) c c' ∧
      (c'.Quiescent ∨ c'.shared.world.1.1.Exhausted) := by
    refine exists_quiescent_or (I := LockInvariant) ?_ ?_ locked
    · exact fun c c' locked step => locked.step (step.weaken fun _ _ _ => trivial)
    · intro c locked left running
      obtain ⟨i, cmd, awaits, ch, res, w, works, returned⟩ :=
        exists_ready_request locked.keeps locked.owned left running
      exact ⟨i, cmd, ch, res, w, awaits, returned, works⟩
  obtain ⟨c', served, ended⟩ := completes
  have inOrder : LocksInOrder c' := (locked.reach (served.weaken fun _ _ _ => trivial)).inOrder
  exact ⟨locked.inOrder, c', served, ended.imp (fun quiet => ⟨quiet, inOrder.settled quiet⟩) id⟩

/-- The second registration of an email waits for the first one's transaction. -/
def secondWaits : List (Move (mikrouliHttp .plain)) :=
  let body : Json := .obj [("email", .str "two@once"), ("password", .str "Waiting1")]
  [.start (.register body), .start (.register body), .run 0 {}, .run 1 {},
    .run 0 { draw := "first to insert" }]

/-- The thread's next command has no outcome with this draw. -/
def stuck (c : Config (mikrouliHttp D)) (i : Nat) (draw : String) : Bool :=
  (c.next anyReady (.run i { draw := draw })).isNone

theorem requests_complete_secondWaits : ∃ c,
    Reach anyStep (initial ((World.empty 0, []), fun _ => none)) c ∧
      stuck c 1 "second to insert" = true ∧ ¬c.Quiescent ∧ LocksInOrder c ∧
      ∃ c', Reach (serving .plain) c c' ∧
        ((c'.Quiescent ∧ ∀ k l, ¬c'.shared.world.1.1.opened k l) ∨
          c'.shared.world.1.1.Exhausted) := by
  obtain ⟨c, reach, passed⟩ := exists_reach_of_play anyStep_of_anyReady
    (initial (V := mikrouliHttp .plain) ((World.empty 0, []), fun _ => none)) secondWaits
    (fun c => stuck c 1 "second to insert" && !decide c.Quiescent) (by decide +kernel)
  rw [Bool.and_eq_true, Bool.not_eq_true', decide_eq_false_iff_not] at passed
  refine ⟨c, reach, passed.1, passed.2, requests_complete (fun k l opened => ?_) reach⟩
  cases l <;> exact absurd opened.choose_spec.1 List.not_mem_nil

end Mikrouli
