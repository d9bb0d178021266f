import Mikrouli.Model.JwtAuthGuard
import Mikrouli.Properties.Admission

/-! What counts as a bearer credential: the text test of `BearerOrApiKeyGuard` against what passport
accepts. -/

namespace Mikrouli

variable {env : GuardEnv} {passport : PassportJwt} {req : HttpRequest}

/-! ### Agreement -/

/-- The two guards admit the request for the same user, and not as a guest where `JwtAuthGuard`
would admit it. -/
structure BearerAgrees (env : GuardEnv) (passport : PassportJwt) (req : HttpRequest) : Prop where
  admits : ∀ id isGuest,
    BearerOrApiKeyGuard.canActivate (env.withPassport passport) req = .ok ⟨id, isGuest⟩ ↔
      ∃ email, JwtAuthGuard.canActivate passport req = .ok ⟨id, email, isGuest⟩
  neverGuest : ∀ user, JwtAuthGuard.canActivate passport req = .ok user →
    ∀ (G : ThrottlerGuard) (s : G.State) user',
      (LinksController.admitCreate G (env.withPassport passport) req s).1 = .ok user' →
        user'.isGuest = false

/-- Passport reads a valid access token off the Authorization header. -/
def HeaderAdmits (passport : PassportJwt) (req : HttpRequest) : Prop :=
  ∃ s token payload, req.header "authorization" = some (.one s) ∧
    passport.fromAuthHeaderAsBearerToken s = some token ∧ token ≠ "" ∧
    passport.verify token = some payload ∧ JwtStrategy.isAccessToken payload = true

/-! ### What each guard takes -/

theorem jwtAuthGuard_ok {user : JwtStrategy.RequestUser} :
    JwtAuthGuard.canActivate passport req = .ok user ↔
      ∃ token payload, JwtStrategy.jwtFromRequest passport req = some (.string token) ∧
        passport.verify token = some payload ∧ JwtStrategy.isAccessToken payload = true ∧
        user = ⟨payload.sub, payload.email, false⟩ := by
  constructor
  · intro admitted
    unfold JwtAuthGuard.canActivate at admitted
    split at admitted
    next token extracted =>
      split at admitted
      · cases admitted
      next payload verified =>
        cases access : JwtStrategy.isAccessToken payload with
        | true =>
          simp only [JwtStrategy.validate, access, ↓reduceIte, Async.Prog.pure_eq, Except.ok.injEq]
            at admitted
          exact ⟨token, payload, extracted, verified, access, admitted.symm⟩
        | false =>
          simp [JwtStrategy.validate, access] at admitted
    · cases admitted
  · rintro ⟨token, payload, extracted, verified, access, rfl⟩
    simp [JwtAuthGuard.canActivate, extracted, verified, JwtStrategy.validate, access]

theorem jwtFromRequest_of_cookieless (cookieless : hasCookieToken req = false) :
    JwtStrategy.jwtFromRequest passport req =
      (JwtStrategy.bearerExtractor passport req).filter JsValue.truthy := by
  have none : (JwtStrategy.cookieExtractor req).filter JsValue.truthy = none := by
    rw [Option.filter_eq_none_iff]
    intro value found
    rw [hasCookieToken, Option.any_eq_false] at cookieless
    exact Bool.eq_false_iff.mp (cookieless value found)
  rw [JwtStrategy.jwtFromRequest, none, Option.none_or]

theorem bearerExtractor_string {token : String} :
    (JwtStrategy.bearerExtractor passport req).filter JsValue.truthy = some (.string token) ↔
      ∃ s, req.header "authorization" = some (.one s) ∧
        passport.fromAuthHeaderAsBearerToken s = some token ∧ token ≠ "" := by
  rw [Option.filter_eq_some_iff, JwtStrategy.bearerExtractor]
  rcases header_authorization req with absent | ⟨s, given⟩
  · simp [absent]
  · simp [given, JsValue.truthy]

/-- Without a cookie, `JwtAuthGuard` admits a request exactly if passport finds a valid access token
in the header. -/
theorem jwtAuthGuard_of_cookieless (cookieless : hasCookieToken req = false) :
    (∃ user, JwtAuthGuard.canActivate passport req = .ok user) ↔ HeaderAdmits passport req := by
  constructor
  · rintro ⟨user, admitted⟩
    obtain ⟨token, payload, extracted, verified, access, -⟩ := jwtAuthGuard_ok.mp admitted
    rw [jwtFromRequest_of_cookieless cookieless] at extracted
    obtain ⟨s, given, read, some⟩ := bearerExtractor_string.mp extracted
    exact ⟨s, token, payload, given, read, some, verified, access⟩
  · rintro ⟨s, token, payload, given, read, some, verified, access⟩
    refine ⟨_, jwtAuthGuard_ok.mpr ⟨token, payload, ?_, verified, access, rfl⟩⟩
    rw [jwtFromRequest_of_cookieless cookieless]
    exact bearerExtractor_string.mpr ⟨s, given, read, some⟩

theorem jwtAuthGuard_isGuest {user : JwtStrategy.RequestUser}
    (admitted : JwtAuthGuard.canActivate passport req = .ok user) : user.isGuest = false := by
  obtain ⟨token, payload, -, -, -, rfl⟩ := jwtAuthGuard_ok.mp admitted
  rfl

/-- Without an API key, a credential is one for `JwtAuthGuard`. -/
theorem chooseAuthMethod_of_keyless (keyless : req.header "x-api-key" = none) :
    chooseAuthMethod req = .ok (if carriesApiCredential req then some .jwt else none) := by
  have agree : ∀ bearer cookie : Bool,
      (do
        let bearer ← (Except.ok bearer : Except Exception Bool)
        if bearer then pure (some AuthMethod.jwt)
        else if false then pure (some .apiKey)
        else if cookie then pure (some .jwt)
        else pure none) =
      Except.ok (if (if bearer then true else if false then true else cookie) then
        some AuthMethod.jwt else none) := by
    intro bearer cookie
    cases bearer with
    | true => rfl
    | false => cases cookie <;> rfl
  simp only [chooseAuthMethod, carriesApiCredential, hasCookieToken, keyless, Option.any_none]
  rcases header_authorization req with absent | ⟨s, given⟩
  · rw [absent]
    -- without the header only the cookie counts, for both tests
    exact agree false _
  · rw [given]
    exact agree (startsWith "Bearer " s) _

/-- A request with a credential but no API key goes through `JwtAuthGuard`. -/
theorem bearerOrApiKey_of_carries (keyless : req.header "x-api-key" = none)
    (carries : carriesApiCredential req = true) {id : String} {isGuest : Bool} :
    BearerOrApiKeyGuard.canActivate (env.withPassport passport) req = .ok ⟨id, isGuest⟩ ↔
      ∃ email, JwtAuthGuard.canActivate passport req = .ok ⟨id, email, isGuest⟩ := by
  have runs : BearerOrApiKeyGuard.canActivate (env.withPassport passport) req =
      ((JwtAuthGuard.canActivate passport req).map JwtStrategy.RequestUser.id >>=
        fun id => pure ⟨id, false⟩) := by
    rw [BearerOrApiKeyGuard.canActivate, chooseAuthMethod_of_keyless keyless, carries]
    rfl
  rw [runs]
  cases admitted : JwtAuthGuard.canActivate passport req with
  | error e =>
    refine iff_of_false (fun wrong => by cases wrong) ?_
    rintro ⟨email, wrong⟩
    cases wrong
  | ok user =>
    -- `BearerOrApiKeyGuard` keeps the id and sets the flag itself
    have plain := jwtAuthGuard_isGuest admitted
    obtain ⟨userId, email, guest⟩ := user
    constructor
    · intro same
      cases same
      cases plain
      exact ⟨email, rfl⟩
    · rintro ⟨_, same⟩
      cases same
      cases plain
      rfl

/-- Who `POST /urls` admits, the guard in front of it has admitted. -/
theorem admitted_of_admitCreate {G : ThrottlerGuard} {s : G.State}
    {user : LinksController.RequestUser}
    (admitted : (LinksController.admitCreate G env req s).1 = .ok user) :
    GuestOrAuthenticatedGuard.canActivate env req = .ok user := by
  unfold LinksController.admitCreate at admitted
  split at admitted
  · cases admitted
  · cases admitted
  · exact admitted

/-! ### The condition -/

theorem hasCookieToken_of_not_carries (bare : carriesApiCredential req = false) :
    hasCookieToken req = false := by
  rw [Bool.eq_false_iff]
  intro cookie
  have carries : carriesApiCredential req = true := by
    rw [hasCookieToken] at cookie
    simp [carriesApiCredential, cookie]
  rw [bare] at carries
  cases carries

/-- By the text test the request carries a credential, or passport finds none in its header. -/
theorem bearerAgrees_iff (keyless : req.header "x-api-key" = none) :
    BearerAgrees env passport req ↔
      carriesApiCredential req = true ∨ ¬HeaderAdmits passport req := by
  cases carries : carriesApiCredential req with
  | true =>
    -- both guards go on to passport
    refine iff_of_true ⟨fun id isGuest => bearerOrApiKey_of_carries keyless carries, ?_⟩ (.inl rfl)
    intro user _ G s user' admitted
    exact isGuest_of_carriesApiCredential carries (admitted_of_admitCreate admitted)
  | false =>
    -- the guard refuses, and passport decides whether it does
    have refused : BearerOrApiKeyGuard.canActivate (env.withPassport passport) req =
        .error UnauthorizedException := by
      rw [BearerOrApiKeyGuard.canActivate, chooseAuthMethod_of_keyless keyless, carries]
      rfl
    rw [← jwtAuthGuard_of_cookieless (hasCookieToken_of_not_carries carries)]
    simp only [Bool.false_eq_true, false_or, not_exists]
    constructor
    · rintro agrees ⟨id, email, isGuest⟩ admitted
      have wrong := (agrees.admits id isGuest).mpr ⟨email, admitted⟩
      rw [refused] at wrong
      cases wrong
    · intro none
      refine ⟨fun id isGuest => ?_, fun user admitted => absurd admitted (none user)⟩
      rw [refused]
      refine iff_of_false (fun wrong => by cases wrong) ?_
      rintro ⟨email, admitted⟩
      exact none _ admitted

theorem carriesApiCredential_of_keyless (keyless : req.header "x-api-key" = none) {s : String}
    (given : req.header "authorization" = some (.one s)) :
    carriesApiCredential req = true ↔ startsWith "Bearer " s = true ∨ hasCookieToken req = true := by
  simp [carriesApiCredential, hasCookieToken, keyless, given]

/-- Without an API key the guards agree on a request exactly if the text test finds a credential or
passport finds no valid one in the header. A header with a bearer token is therefore read alike
exactly if it starts as the test has it, a cookie goes with it, or the token is no access token. -/
theorem bearer_agrees_iff (env : GuardEnv) (passport : PassportJwt) {req : HttpRequest}
    (keyless : req.header "x-api-key" = none) :
    (BearerAgrees env passport req ↔
      carriesApiCredential req = true ∨ ¬HeaderAdmits passport req) ∧
    ∀ scheme space token, isWord scheme = true → isGap space = true → isWord token = true →
      scheme.toLower = "bearer" →
      req.header "authorization" = some (.one (scheme ++ space ++ token)) →
      (BearerAgrees env passport req ↔
        startsWith "Bearer " (scheme ++ space ++ token) = true ∨ hasCookieToken req = true ∨
          ∀ payload, passport.verify token = some payload →
            JwtStrategy.isAccessToken payload = false) := by
  refine ⟨bearerAgrees_iff keyless, ?_⟩
  intro scheme space token first gap second same given
  -- what passport takes from such a header is its token
  have read := passport.bearer scheme space token first gap second same
  have admits : HeaderAdmits passport req ↔
      ∃ payload, passport.verify token = some payload ∧ JwtStrategy.isAccessToken payload = true := by
    constructor
    · rintro ⟨s, token', payload, given', read', -, valid⟩
      rw [given] at given'
      cases given'
      rw [read] at read'
      cases read'
      exact ⟨payload, valid⟩
    · rintro ⟨payload, valid⟩
      have some : token ≠ "" := by
        -- a token of no letters is no word
        rintro rfl
        cases second
      exact ⟨_, token, payload, given, read, some, valid⟩
  rw [bearerAgrees_iff keyless, carriesApiCredential_of_keyless keyless given, or_assoc, admits]
  simp only [not_exists, not_and, Bool.not_eq_true]

/-! ### Concrete requests -/

def visitorPassport : PassportJwt :=
  .plain fun token => if token = "x" then some ⟨"u", "u@ab.cd", none, none, none⟩ else none

def signedIn : HttpRequest :=
  ⟨[("Host", "mikrou.li"), ("Origin", "https://mikrou.li"), ("Authorization", "Bearer x")], none⟩

theorem bearer_agrees_signedIn : BearerAgrees visited visitorPassport signedIn := by
  have keyless : signedIn.header "x-api-key" = none := by decide +kernel
  have carries : carriesApiCredential signedIn = true := by decide +kernel
  exact (bearer_agrees_iff visited visitorPassport keyless).1.mpr (.inl carries)

/-- The scheme in lower case: a signed-in user to `JwtAuthGuard`, nobody to `BearerOrApiKeyGuard`
and the guest to `POST /urls`. -/
theorem bearer_lowercase :
    visitor.header "x-api-key" = none ∧
      JwtAuthGuard.canActivate visitorPassport visitor = .ok ⟨"u", "u@ab.cd", false⟩ ∧
      BearerOrApiKeyGuard.canActivate (visited.withPassport visitorPassport) visitor =
        .error UnauthorizedException ∧
      (LinksController.admitCreate .inMemory (visited.withPassport visitorPassport) visitor []).1 =
        .ok ⟨"guest", true⟩ ∧
      ¬BearerAgrees visited visitorPassport visitor := by
  have admitted : JwtAuthGuard.canActivate visitorPassport visitor = .ok ⟨"u", "u@ab.cd", false⟩ := by
    decide +kernel
  have guest : (LinksController.admitCreate .inMemory (visited.withPassport visitorPassport) visitor
      []).1 = .ok ⟨"guest", true⟩ := by decide +kernel
  refine ⟨by decide +kernel, admitted, by decide +kernel, guest, fun agrees => ?_⟩
  have wrong := agrees.neverGuest _ admitted .inMemory [] _ guest
  cases wrong

end Mikrouli
