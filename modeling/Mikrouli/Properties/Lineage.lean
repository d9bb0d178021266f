import Mikrouli.Properties.Provenance

/-! How long a session lasts: a token that identifies a request is fresh, and descends from a
sign-in through refreshes, each of them made before its refresh token had expired. -/

namespace Mikrouli

open Async Store

variable {D : Deployment}

/-! ### Tokens as they are signed -/

/-- The seconds a token of this payload lives. -/
def tokenLifetime (payload : JwtPayload) : Nat :=
  if payload.type = some REFRESH_TOKEN_TYPE then REFRESH_TOKEN_TTL_SECONDS
  else ACCESS_TOKEN_TTL_SECONDS

/-- The secret a token of this payload is signed with. -/
def Platform.secretFor (P : Platform) (payload : JwtPayload) : String :=
  if payload.type = some REFRESH_TOKEN_TYPE then P.jwtRefreshSecret else P.jwtSecret

/-- Nothing is signed but access tokens and refresh tokens. -/
def SignsProperly (P : Platform) : Cmd → Prop
  | .sign secret payload expiresIn =>
    secret = P.secretFor payload ∧ expiresIn = tokenLifetime payload
  | _ => True

section Programs

variable {P : Platform}

theorem issueTokens_signsProperly (user : User) :
    (AuthService.issueTokens P user).Only (SignsProperly P) := by
  refine .bind (.perform trivial) fun jti => .bind (.perform trivial) fun family => ?_
  refine .bind (.perform ⟨rfl, rfl⟩) fun access => .bind (.perform ⟨rfl, rfl⟩) fun refresh => ?_
  exact .bind (only_setWithOptionalTtl fun _ => trivial) fun _ => trivial

theorem rotateRefresh_signsProperly (token : Token) :
    (AuthService.rotateRefresh P token).Only (SignsProperly P) := by
  refine .bind (.tryCatch (.perform trivial) fun _ => trivial) fun payload => ?_
  refine .bind ?_ fun _ => .bind ?_ fun claims => .bind (.perform trivial) fun stored => ?_
  · unfold assertRefreshType
    split <;> trivial
  · unfold assertRefreshClaims
    split <;> trivial
  · cases stored with
    | none => trivial
    | some storedJti =>
      simp only
      split
      · exact .bind (.perform trivial) fun _ => trivial
      · refine .bind (.perform trivial) fun user => ?_
        cases user with
        | none => trivial
        | some user => exact issueTokens_signsProperly user

theorem withCookies_signsProperly {cookies : List CookieHeader} {rest : Prog Returned}
    (only : rest.Only (SignsProperly P)) : (withCookies cookies rest).Only (SignsProperly P) :=
  .tryCatch (.bind only fun _ => trivial) fun _ => trivial

theorem githubAuthorize_signsProperly :
    AuthController.githubAuthorize.Only (SignsProperly P) := by
  refine .tryCatch (.bind (.perform trivial) fun token => .bind ?_ fun _ => trivial) fun _ => trivial
  exact only_setWithOptionalTtl fun _ => trivial

theorem githubCallback_signsProperly (providedState : String) (exchange : Option GithubProfile) :
    (AuthController.githubCallback P providedState exchange).Only (SignsProperly P) := by
  refine .bind (.tryCatch (.bind (.perform trivial) fun stored => ?_) fun _ => trivial) fun ok => ?_
  · cases stored <;> trivial
  split
  · trivial
  split
  · trivial
  · exact .bind (only_findOrCreateFromProvider trivial (fun _ => trivial) trivial (fun _ => trivial)
      trivial trivial trivial) issueTokens_signsProperly

theorem session_signsProperly {T : TextChecks} {isProd : Bool} {authorizeUrl : String → String}
    (request : SessionRequest) :
    (request.respond T isProd P authorizeUrl).Only (SignsProperly P) := by
  have filters : ∀ {handler : Prog Handled} {filter : Handled → HttpResponse},
      handler.Only (SignsProperly P) → (filtered handler filter).Only (SignsProperly P) :=
    fun only => .bind (.tryCatch only fun _ => trivial) fun _ => trivial
  cases request with
  | login body =>
    simp only [SessionRequest.respond]
    split
    · trivial
    · refine filters (.bind (only_validateCredentials trivial) fun user => ?_)
      cases user with
      | none => trivial
      | some user =>
        exact .bind (issueTokens_signsProperly user) fun _ => withCookies_signsProperly trivial
  | refresh token =>
    cases token with
    | none => exact filters trivial
    | some token =>
      refine filters (.bind (rotateRefresh_signsProperly token) fun _ =>
        withCookies_signsProperly (.bind (.perform trivial) fun user => ?_))
      cases user <;> trivial
  | logout token =>
    cases token with
    | none => exact filters (withCookies_signsProperly trivial)
    | some token =>
      refine filters (.bind (.tryCatch (only_revokeRefresh (fun _ => trivial) fun _ => trivial) ?_)
        fun _ => withCookies_signsProperly trivial)
      exact fun _ => trivial
  | githubCallback query =>
    refine filters ?_
    cases query with
    | error => trivial
    | code providedState exchange =>
      exact .bind (githubCallback_signsProperly providedState exchange) fun _ =>
        withCookies_signsProperly trivial
    | absent => exact .bind githubAuthorize_signsProperly fun _ => trivial

end Programs

/-! ### The contract -/

/-- The thread answers a request about a session. -/
def OnSession (es : HttpEvents D) : Prop := ∃ request, .start (.session request) ∈ es

/-- What the session routes keep to. -/
def SignsProperlyIn (D : Deployment) : httpApi.Cmd → Prop
  | .inl (.inl c) => SignsProperly D.platform c
  | .inl (.inr _) | .inr _ => True

/-- What is authorised, and signed as it should be. -/
def IssuesFor (es : HttpEvents D) (c : httpApi.Cmd) : Prop :=
  Authorised es c ∧ (OnSession es → SignsProperlyIn D c)

theorem Authenticated.onSession {es : HttpEvents D} {userId : String}
    (authenticated : Authenticated es userId) : OnSession es := by
  have github : ∀ {identity}, FromGithub es identity → OnSession es :=
    fun ⟨_, _, _, started, _⟩ => ⟨_, started⟩
  rcases authenticated with signs | ⟨⟨asked, -⟩, -⟩
  · cases signs with
    | password asked => exact ⟨_, asked⟩
    | known returned => exact github returned
    | linked returned => exact github returned
  · exact ⟨_, asked⟩

theorem session_issues (request : SessionRequest) (es : HttpEvents D) :
    Along (V := mikrouliHttp D) (fun es c => OnSession es → SignsProperlyIn D c) (fun _ _ => True)
      (HttpReq.respond D (.session request)) es := by
  have only : (HttpReq.respond D (.session request)).Only (SignsProperlyIn D) :=
    .bind (only_within (session_signsProperly request)) fun _ => trivial
  refine Along.of_only (K := fun _ => True) only ?_ ?_ trivial
  · exact fun es c proper _ => ⟨fun _ => proper, fun _ _ => trivial⟩
  · exact fun _ _ _ => trivial

/-- No other route signs anything. -/
theorem other_issues {r : HttpReq} (other : ∀ request, r ≠ .session request) :
    Along (V := mikrouliHttp D) (fun es c => OnSession es → SignsProperlyIn D c) (fun _ _ => True)
      (r.respond D) [.start r] := by
  refine Along.of_stable (K := fun es => ¬OnSession es) ?_ ?_ (fun _ _ => trivial) ?_
  · rintro es c res off ⟨request, started⟩
    rcases List.mem_cons.mp started with new | old
    · cases new
    · exact off ⟨request, old⟩
  · exact fun es c off session => absurd session off
  · rintro ⟨request, started⟩
    cases List.mem_singleton.mp started
    exact other request rfl

theorem respond_issues (r : HttpReq) :
    Along (V := mikrouliHttp D) IssuesFor (fun es res => OnSuccess Reveals es res ∧ True) (r.respond D)
      [.start r] := by
  refine (respond_mediated r).both ?_
  cases r with
  | session request => exact session_issues request _
  | _ => exact other_issues fun request same => by cases same

/-! ### Lineage -/

section Lineage

variable (w₀ : World) (σ : Shared (mikrouliHttp D))

/-- In this entry of the log the token was signed, for as long as its kind lives. -/
structure MintedIn (e : Entry (mikrouliHttp D)) (t : Jwt) : Prop where
  logged : e ∈ σ.log
  event : ∃ expiresIn, e.event = .call (.inl (.inl (.sign t.secret t.payload expiresIn))) (.ok t)
  secret : t.secret = D.platform.secretFor t.payload
  iat : t.iat = e.world.1.1.now / 1000
  exp : t.exp = t.iat + tokenLifetime t.payload

/-- In this entry the token was verified: it had not expired. -/
structure VerifiedIn (e : Entry (mikrouliHttp D)) (secret : String) (t : Jwt) : Prop where
  logged : e ∈ σ.log
  event : e.event = .call (.inl (.inl (.verify secret (.jwt t)))) (.ok t.payload)
  fresh : e.world.1.1.now / 1000 < t.exp

/-- How the server came to sign a token: for a user it signed in, or in place of a refresh token of
the same user, which descends so too, had not expired and was still listed. -/
inductive Lineage : Jwt → Prop
  | before {t : Jwt} (held : t ∈ w₀.signed) : Lineage t
  | signedIn {e : Entry (mikrouliHttp D)} {t : Jwt} (minted : MintedIn σ e t)
      (signs : SignsIn (σ.own e.thread) t.payload.sub) : Lineage t
  | renewed {e e' : Entry (mikrouliHttp D)} {t t' : Jwt} {jti family : String}
      (minted : MintedIn σ e t) (verified : VerifiedIn σ e' D.platform.jwtRefreshSecret t')
      (thread : e'.thread = e.thread) (earlier : e'.world.1.1.now ≤ e.world.1.1.now)
      (sub : t'.payload.sub = t.payload.sub)
      (type : t'.payload.type = some REFRESH_TOKEN_TYPE)
      (claims : refreshClaims t'.payload = some (jti, family))
      (listed : Did (σ.own e.thread) (.redisGet (buildRevocationKey family)) (some jti))
      (descends : Lineage t') : Lineage t

/-- The token was there at this moment. -/
def HeldBy (t : Jwt) (now : Nat) : Prop :=
  t ∈ w₀.signed ∨ ∃ e, MintedIn σ e t ∧ e.world.1.1.now ≤ now

/-- The thread had a token of its lineage verified. -/
def VerifiedBy (i : Nat) (secret : String) (token : Token) (payload : JwtPayload) : Prop :=
  ∃ t e, token = .jwt t ∧ payload = t.payload ∧ e.thread = i ∧ VerifiedIn σ e secret t ∧
    HeldBy w₀ σ t e.world.1.1.now ∧ Lineage w₀ σ t

/-- Every token that was signed or verified has its lineage. -/
structure Descended : Prop where
  clock : ∀ e ∈ σ.log, e.world.1.1.now ≤ σ.world.1.1.now
  signed : ∀ t ∈ σ.world.1.1.signed, Lineage w₀ σ t
  verified : ∀ i secret token payload, Did (σ.own i) (.verify secret token) payload →
    VerifiedBy w₀ σ i secret token payload

end Lineage

section Steps

variable {w₀ : World} {σ σ' : Shared (mikrouliHttp D)} {i : Nat}

theorem own_subset_of_log (grown : σ.log ⊆ σ'.log) (j : Nat) : σ.own j ⊆ σ'.own j := by
  intro e member
  obtain ⟨entry, logged, thread, rfl⟩ := Shared.mem_log_of_mem_own member
  refine List.mem_map.mpr ⟨entry, List.mem_filter.mpr ⟨grown logged, decide_eq_true thread⟩, rfl⟩

section Growth

variable (grown : σ.log ⊆ σ'.log) {e : Entry (mikrouliHttp D)} {t : Jwt}

include grown

theorem MintedIn.mono (minted : MintedIn σ e t) : MintedIn σ' e t :=
  ⟨grown minted.logged, minted.event, minted.secret, minted.iat, minted.exp⟩

theorem VerifiedIn.mono {secret : String} (verified : VerifiedIn σ e secret t) :
    VerifiedIn σ' e secret t :=
  ⟨grown verified.logged, verified.event, verified.fresh⟩

theorem HeldBy.mono {now : Nat} (held : HeldBy w₀ σ t now) : HeldBy w₀ σ' t now :=
  held.imp id fun ⟨e, minted, earlier⟩ => ⟨e, minted.mono grown, earlier⟩

theorem Lineage.mono (lineage : Lineage w₀ σ t) : Lineage w₀ σ' t := by
  induction lineage with
  | before held => exact .before held
  | signedIn minted signs =>
    exact .signedIn (minted.mono grown) (signs.mono (own_subset_of_log grown _))
  | renewed minted verified thread earlier sub type claims listed _ ih =>
    exact .renewed (minted.mono grown) (verified.mono grown) thread earlier sub type claims
      (own_subset_of_log grown _ listed) ih

end Growth

/-- What has a lineage has been there since it was signed. -/
theorem Lineage.heldBy (clock : ∀ e ∈ σ.log, e.world.1.1.now ≤ σ.world.1.1.now) {t : Jwt}
    (lineage : Lineage w₀ σ t) : HeldBy w₀ σ t σ.world.1.1.now := by
  cases lineage with
  | before held => exact .inl held
  | signedIn minted => exact .inr ⟨_, minted, clock _ minted.logged⟩
  | renewed minted => exact .inr ⟨_, minted, clock _ minted.logged⟩

theorem Descended.grown (descended : Descended w₀ σ) (grown : σ.log ⊆ σ'.log)
    (clock : ∀ e ∈ σ'.log, e ∈ σ.log ∨ e.world.1.1.now ≤ σ'.world.1.1.now)
    (later : σ.world.1.1.now ≤ σ'.world.1.1.now)
    (signed : ∀ t ∈ σ'.world.1.1.signed, t ∈ σ.world.1.1.signed ∨ Lineage w₀ σ' t)
    (verified : ∀ j secret token payload, Did (σ'.own j) (.verify secret token) payload →
      Did (σ.own j) (.verify secret token) payload ∨ VerifiedBy w₀ σ' j secret token payload) :
    Descended w₀ σ' := by
  constructor
  · intro e member
    rcases clock e member with old | now
    · exact le_trans (descended.clock e old) later
    · exact now
  · intro t member
    rcases signed t member with old | new
    · exact (descended.signed t old).mono grown
    · exact new
  · intro j secret token payload did
    rcases verified j secret token payload did with old | new
    · obtain ⟨t, e, same, body, thread, v, held, lineage⟩ :=
        descended.verified j secret token payload old
      exact ⟨t, e, same, body, thread, v.mono grown, held.mono grown, lineage.mono grown⟩
    · exact new

variable {c : httpApi.Cmd} {ch : Choice} {res : Except AppError (httpApi.Res c)}
  {w : (mikrouliHttp D).World}

/-- A thread that may sign makes the lineage of what it signs. -/
theorem Descended.sign (descended : Descended w₀ σ) {secret : String} {payload : JwtPayload}
    {expiresIn : Nat} {res : Except AppError Jwt}
    (issues : IssuesFor (σ.own i) (.inl (.inl (.sign secret payload expiresIn))))
    (returned : (mikrouliHttp D).exec i (.inl (.inl (.sign secret payload expiresIn))) ch σ.world =
      some (res, w)) :
    Lineage w₀ (σ.called i (.inl (.inl (.sign secret payload expiresIn))) res w)
      ⟨secret, payload, σ.world.1.1.now / 1000, σ.world.1.1.now / 1000 + expiresIn⟩ := by
  have returned := exec_inl_inl returned
  have frame := exec_frame returned
  have authenticated : Authenticated (σ.own i) payload.sub := issues.1
  obtain ⟨same, lives⟩ : secret = D.platform.secretFor payload ∧ expiresIn = tokenLifetime payload :=
    issues.2 authenticated.onSession
  generalize grew : σ.called i (.inl (.inl (.sign secret payload expiresIn))) res w = σ'
  have grown : σ.log ⊆ σ'.log := by
    rw [← grew]
    exact List.subset_cons_self _ _
  have own := own_subset_of_log grown i
  have minted : MintedIn σ' ⟨i, .call (.inl (.inl (.sign secret payload expiresIn))) res, w⟩
      ⟨secret, payload, σ.world.1.1.now / 1000, σ.world.1.1.now / 1000 + expiresIn⟩ := by
    refine ⟨?_, ⟨expiresIn, ?_⟩, same, ?_, ?_⟩
    · rw [← grew]
      exact List.mem_cons_self
    · rw [exec_sign returned]
    · change _ = w.1.1.now / 1000
      rw [frame.now]
    · rw [lives]
  generalize subject : payload.sub = userId at authenticated
  rcases authenticated with signs | ⟨⟨asked, verified, type, claims, listed⟩, found⟩
  · exact .signedIn minted (subject ▸ signs.mono own)
  · obtain ⟨t', e', rfl, rfl, thread, v, held, lineage⟩ := descended.verified i _ _ _ verified
    refine .renewed minted (v.mono grown) thread ?_ subject.symm type claims (own listed)
      (lineage.mono grown)
    change e'.world.1.1.now ≤ w.1.1.now
    rw [frame.now]
    exact descended.clock e' v.logged

theorem Descended.called (descended : Descended w₀ σ) (issues : IssuesFor (σ.own i) c)
    (returned : (mikrouliHttp D).exec i c ch σ.world = some (res, w))
    (allowed : signsAlone D σ (.call i c ch)) : Descended w₀ (σ.called i c res w) := by
  have grown : σ.log ⊆ (σ.called i c res w).log := List.subset_cons_self _ _
  have clock : w.1.1.now = σ.world.1.1.now := by
    rcases c with (c | c) | c
    · exact (exec_frame (exec_inl_inl returned)).now
    · rw [exec_inl_inr returned]
    · rw [exec_inr returned]
  refine descended.grown grown ?_ (le_of_eq clock.symm) ?_ ?_
  · intro e member
    rcases List.mem_cons.mp member with rfl | old
    · exact .inr (le_refl _)
    · exact .inl old
  · intro t member
    rw [Shared.called_world] at member
    rcases c with (c | c) | c
    · cases c with
      | sign secret payload expiresIn =>
        rw [exec_sign_signed (exec_inl_inl returned)] at member
        rcases List.mem_cons.mp member with rfl | old
        · exact .inr (descended.sign issues returned)
        · exact .inl old
      | _ =>
        rw [(exec_frame (exec_inl_inl returned)).signed rfl] at member
        exact .inl member
    · rw [exec_inl_inr returned] at member
      exact .inl member
    · rw [exec_inr returned] at member
      exact .inl member
  · intro j secret token payload did
    rcases Shared.mem_own_called.mp did with ⟨rfl, new⟩ | old
    · cases new
      cases token with
      | other s => cases exec_verify_other (exec_inl_inl returned)
      | jwt t =>
        obtain ⟨-, ⟨valid, secret', fresh⟩ | ⟨invalid, -⟩⟩ := exec_verify_jwt (exec_inl_inl returned)
        · cases valid
          have lineage := descended.signed t (allowed secret')
          have held := lineage.heldBy descended.clock
          rw [← clock] at fresh held
          exact .inr ⟨t, ⟨j, _, w⟩, rfl, rfl, rfl, ⟨List.mem_cons_self, rfl, fresh⟩, held.mono grown,
            lineage.mono grown⟩
        · cases invalid
    · exact .inl old

/-- The server's contract with itself: every command is authorised, every token signed properly. -/
abbrev issuance (D : Deployment) : Contract (mikrouliHttp D) :=
  .ofHistory IssuesFor fun _ es res => OnSuccess Reveals es res ∧ True

theorem Descended.acts (descended : Descended w₀ σ)
    (acts : (issuance D).Acts (signsAlone D) σ σ') : Descended w₀ σ' := by
  cases acts with
  | start n r _ _ =>
    refine descended.grown (List.subset_cons_self _ _) ?_ (le_refl _) (fun t member => .inl member) ?_
    · intro e member
      rcases List.mem_cons.mp member with rfl | old
      · exact .inr (le_refl _)
      · exact .inl old
    · exact fun j secret token payload did => .inl (Shared.call_mem_own_started.mp did)
  | call pre returned allowed => exact descended.called pre returned allowed
  | env e _ =>
    refine descended.grown (List.Subset.refl _) (fun _ old => .inl old) ?_ (fun t member => .inl ?_)
      fun _ _ _ _ did => .inl did
    · cases e with
      | pass ms => exact Nat.le_add_right _ _
      | restart process => exact le_refl _
    · cases e <;> exact member

theorem Descended.initial (w : (mikrouliHttp D).World) :
    Descended w.1.1 (⟨w, []⟩ : Shared (mikrouliHttp D)) :=
  ⟨fun _ member => absurd member List.not_mem_nil, fun _ member => .before member,
    fun _ _ _ _ did => absurd did List.not_mem_nil⟩

end Steps

/-! ### The whole run -/

section Runs

variable {w : (mikrouliHttp D).World} {c : Config (mikrouliHttp D)}

theorem descended_of_reach (reach : Reach (signsAlone D) (initial w) c) :
    Descended w.1.1 c.shared :=
  ((Contract.ofHistory_holds w : (issuance D).Holds (signsAlone D) (initial w))).invariant
    (Contract.ofHistory_sound respond_issues) (fun _ _ _ acts descended => descended.acts acts)
    (.initial w) reach

/-- A request is taken for a user on an access token of less than fifteen minutes, which descends
from a sign-in of that user. -/
theorem lineage_of_identified (reach : Reach (signsAlone D) (initial w) c) {i : Nat}
    {userId : String} (identified : IdentifiedBy (c.shared.own i) .jwt userId) :
    ∃ t e, e.thread = i ∧ VerifiedIn c.shared e D.platform.jwtSecret t ∧ t.payload.sub = userId ∧
      Lineage w.1.1 c.shared t ∧ (t ∈ w.1.1.signed ∨ ∃ e', MintedIn c.shared e' t ∧
        e'.world.1.1.now ≤ e.world.1.1.now ∧
        e.world.1.1.now / 1000 < e'.world.1.1.now / 1000 + ACCESS_TOKEN_TTL_SECONDS) := by
  cases identified with
  | jwt asked carried verified access =>
    obtain ⟨t, e, -, rfl, thread, v, held, lineage⟩ :=
      (descended_of_reach reach).verified i _ _ _ verified
    refine ⟨t, e, thread, v, rfl, lineage, held.imp id ?_⟩
    rintro ⟨e', minted, earlier⟩
    have short : tokenLifetime t.payload = ACCESS_TOKEN_TTL_SECONDS :=
      if_neg (of_decide_eq_true access)
    refine ⟨e', minted, earlier, ?_⟩
    rw [← short, ← minted.iat, ← minted.exp]
    exact v.fresh

end Runs

theorem lineage_of_identified_keyMaking : ∃ c t e,
    Reach (signsAlone .plain) (initial oneAccount) c ∧ e.thread = 1 ∧
      VerifiedIn c.shared e Platform.plain.jwtSecret t ∧ t.payload.sub = "u@ab.cd" ∧
      Lineage oneAccount.1.1 c.shared t := by
  obtain ⟨c, reach, passed⟩ := exists_reach_of_play signsAlone_of_isSignedAlone (initial oneAccount)
    keyMaking (fun c => decide (savesKeyFor c 1 = some "u@ab.cd")) (by decide +kernel)
  obtain ⟨label, keyHash, keyPrefix, waits⟩ := awaits_of_savesKeyFor (of_decide_eq_true passed)
  have identified : IdentifiedBy (c.shared.own 1) .jwt "u@ab.cd" := (mediation_holds reach).pre waits
  obtain ⟨t, e, thread, verified, sub, lineage, -⟩ := lineage_of_identified reach identified
  exact ⟨c, t, e, reach, thread, verified, sub, lineage⟩

end Mikrouli
