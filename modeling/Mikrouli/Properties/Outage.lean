import Mikrouli.Lib.Recorded
import Mikrouli.Model.Commands
import Mikrouli.Model.Footprint
import Mikrouli.Model.SessionRoutes

/-! The session routes while Redis fails, whichever of a request's commands it fails for. -/

namespace Mikrouli

open Async

variable {P : Platform} {T : TextChecks} {isProd : Bool} {authorizeUrl : String → String} {i : Nat}

/-! ### Failures of Redis -/

/-- A Redis command of the request failed. -/
def RedisFailed (log : List (Call api)) : Prop :=
  ∃ call ∈ log, call.cmd.onRedis = true ∧ ∃ e, call.res = .error e

/-- How a Redis command fails. -/
def redisFails (c : Cmd) (e : AppError) : Prop := c.onRedis = true ∧ e = .redis

theorem exec_onRedis {c : Cmd} {ch : Choice} {w w' : World} {e : AppError} (redis : c.onRedis = true)
    (returned : exec P i c ch w = some (.error e, w')) : e = .redis := by
  cases c with
  | redisGet key | redisSet key value ex | redisDel key | redisGetDel key =>
    simp only [exec] at returned
    split at returned
    · cases returned
      rfl
    · cases returned
  | _ => cases redis

/-- Any setting at all: other requests may change the world in between, and anything may fail. -/
abbrev anyhow (P : Platform) : Setting (machine P) where
  allow _ _ _ := True
  drift _ _ := True

/-- A handler that every failure of Redis ends. -/
theorem filtered_outage {handler : Prog Handled} {bad : AppError → Prop} {w : World}
    {filter : Handled → HttpResponse} (fails : handler.FailsOn redisFails bad) :
    Always (machine P).recorded (anyhow P).recorded i
      (fun r w' => ∃ handled, r = .ok (filter handled) ∧
        (RedisFailed w'.2 → ∃ e, bad e ∧ handled = ⟨[], .error e⟩))
      (filtered handler filter) (w, []) := by
  have looks (c : Cmd) (ch : Choice) (w : World) (res : Except AppError c.Res) (w' : World)
      (returned : exec P i c ch w = some (res, w')) (redis : c.onRedis = true) (e : AppError)
      (failed : res = .error e) : e = .redis := by
    rw [failed] at returned
    exact exec_onRedis redis returned
  have kinds : Always (machine P).recorded (anyhow P).recorded i
      (fun _ w' => ∀ call ∈ w'.2, call.cmd.onRedis = true → ∀ e, call.res = .error e → e = .redis)
      handler (w, []) := Always.recorded_calls looks fun _ none => by cases none
  have thrown : Always (machine P).recorded (anyhow P).recorded i
      (fun r w' => (∃ call ∈ w'.2, call.Failed redisFails) → ∃ e, bad e ∧ r = .error e)
      handler (w, []) := Always.recorded_failsOn fails fun _ none => by cases none
  apply Always.map
  apply Always.tryCatch
  refine (kinds.and thrown).mono fun r w' ⟨kind, ends⟩ => ?_
  -- what the record has of Redis's failures is how they look
  have failed : RedisFailed w'.2 → ∃ e, bad e ∧ r = .error e := by
    rintro ⟨call, member, redis, e, failed⟩
    exact ends ⟨call, member, e, failed, redis, kind call member redis e failed⟩
  cases r with
  | ok handled =>
    refine ⟨handled, rfl, fun outage => ?_⟩
    obtain ⟨e, -, wrong⟩ := failed outage
    cases wrong
  | error e =>
    refine ⟨⟨[], .error e⟩, rfl, fun outage => ?_⟩
    obtain ⟨e', worst, same⟩ := failed outage
    cases same
    exact ⟨e, worst, rfl⟩

/-! ### Handlers -/

section Handlers

variable {ok : Cmd → Prop} {bad : AppError → Prop}

/-- A program that does not touch Redis. -/
theorem failsOn_of_aside {α : Type} {p : Prog α} (aside : Prog.Only (fun c : Cmd => c.onRedis = false) p) :
    p.FailsOn redisFails bad := by
  refine .of_only aside fun c e other failed => ?_
  rw [failed.1] at other
  cases other

theorem failsOn_redis {c : Cmd} : (await c).FailsOn redisFails (Eq AppError.redis) :=
  .perform fun _ failed => failed.2.symm

theorem withCookies_failsOn {cookies : List CookieHeader} {rest : Prog Returned}
    (aside : Prog.Only (fun c : Cmd => c.onRedis = false) rest) :
    (withCookies cookies rest).FailsOn redisFails bad :=
  failsOn_of_aside (.tryCatch (.bind aside fun _ => trivial) fun _ => trivial)

theorem setOrThrow_failsOn {key value : String} {ttl : Option Nat} :
    (setOrThrow key value ttl).FailsOn redisFails (Eq AppError.redis) := by
  unfold setOrThrow setWithOptionalTtl
  split
  · split
    · exact failsOn_redis
    · exact failsOn_redis
  · exact failsOn_redis

theorem issueTokens_failsOn {user : User} :
    (AuthService.issueTokens P user).FailsOn redisFails (Eq AppError.redis) := by
  refine .bind failsOn_redis fun jti => .bind failsOn_redis fun family => ?_
  refine .bind failsOn_redis fun accessToken => .bind failsOn_redis fun refreshToken => ?_
  exact .bind setOrThrow_failsOn fun _ => trivial

theorem login_failsOn {email password : String} :
    (SessionRoutes.login P email password).FailsOn redisFails (Eq AppError.redis) := by
  refine .bind (failsOn_of_aside (only_validateCredentials rfl)) fun user => ?_
  cases user with
  | none => trivial
  | some user => exact .bind issueTokens_failsOn fun issued => withCookies_failsOn trivial

theorem rotateRefresh_failsOn {token : Token} :
    (AuthService.rotateRefresh P token).FailsOn redisFails (Eq AppError.redis) := by
  have decodes : Prog.Only (fun c : Cmd => c.onRedis = false)
      (decodeRefreshToken token P.jwtRefreshSecret) := .tryCatch (.perform rfl) fun _ => trivial
  refine .bind (failsOn_of_aside decodes) fun payload => ?_
  refine .bind ?_ fun _ => .bind ?_ fun claims => .bind failsOn_redis fun stored => ?_
  · unfold assertRefreshType
    split <;> trivial
  · unfold assertRefreshClaims
    split <;> trivial
  · cases stored with
    | none => trivial
    | some storedJti =>
      simp only
      split
      · exact .bind failsOn_redis fun _ => trivial
      -- the user is looked up between the GET and the SET
      · refine .bind failsOn_redis fun user => ?_
        cases user with
        | none => trivial
        | some user => exact issueTokens_failsOn

theorem refresh_failsOn {token : Option Token} :
    (SessionRoutes.refresh P token).FailsOn redisFails (Eq AppError.redis) := by
  cases token with
  | none => trivial
  | some token =>
    refine .bind rotateRefresh_failsOn fun issued => withCookies_failsOn ?_
    refine .bind (.perform rfl) fun user => ?_
    cases user <;> trivial

theorem revokeRefresh_failsOn {token : Token} :
    (AuthService.revokeRefresh P token).FailsOn redisFails (Eq AppError.redis) := by
  have verifies : Prog.Only (fun c : Cmd => c.onRedis = false)
      ((do
        let payload ← await (.verify P.jwtRefreshSecret token)
        pure (some payload) : Prog (Option JwtPayload)).tryCatch fun _ => pure none) :=
    .tryCatch (.bind (.perform rfl) fun _ => trivial) fun _ => trivial
  -- verification fails without Redis, and a failure of it is no error
  refine .bind (failsOn_of_aside verifies) fun verified => ?_
  cases verified with
  | none => trivial
  | some payload =>
    simp only [AuthService.revokeFamily]
    split
    · trivial
    · split
      · trivial
      · exact failsOn_redis

/-- What a logout throws instead. -/
def revocationUnavailable : AppError :=
  .serviceUnavailable "Session revocation temporarily unavailable"

theorem logout_failsOn {token : Option Token} :
    (SessionRoutes.logout P token).FailsOn redisFails (Eq revocationUnavailable) := by
  cases token with
  | none => exact withCookies_failsOn trivial
  | some token =>
    -- the handler turns any failure into its own
    refine .bind (.tryCatch revokeRefresh_failsOn ?_ fun _ => trivial) fun _ =>
      withCookies_failsOn trivial
    exact fun _ _ => ⟨revocationUnavailable, rfl, rfl⟩

theorem githubCallback_failsOn {query : CallbackQuery} :
    (SessionRoutes.githubCallback P authorizeUrl query).FailsOn redisFails
      fun e => e = GithubOauthFailedError ∨ e = AppError.redis := by
  cases query with
  | error => trivial
  | code providedState exchange =>
    refine .bind (.bind ?_ fun ok => ?_) fun issued => withCookies_failsOn trivial
    -- a state that cannot be consumed is no state
    · refine .tryCatch (.bind failsOn_redis fun found => ?_) ?_ fun _ => trivial
      · cases found <;> trivial
      · exact fun _ _ => ⟨GithubOauthFailedError, .inl rfl, rfl⟩
    · split
      · trivial
      · split
        · trivial
        next identity _ =>
          -- accounts are resolved in the database; the SET of the session is not caught
          have finds : Prog.Only (fun c : Cmd => c.onRedis = false)
              (UsersService.findOrCreateFromProvider identity) :=
            only_findOrCreateFromProvider rfl (fun _ => rfl) rfl (fun _ => rfl) rfl rfl rfl
          exact .bind (failsOn_of_aside finds) fun user =>
            issueTokens_failsOn.mono fun e thrown => .inr thrown.symm
  | absent =>
    refine .bind (.tryCatch (.bind failsOn_redis fun token => ?_) ?_ fun _ => trivial) fun _ => trivial
    · exact .bind setOrThrow_failsOn fun _ => trivial
    · exact fun _ _ => ⟨GithubOauthFailedError, .inl rfl, rfl⟩

end Handlers

/-! ### Responses -/

/-- What goes out for a request one of whose Redis commands failed. -/
def Outage (T : TextChecks) (isProd : Bool) (response : HttpResponse) : SessionRequest → Prop
  | .login _ | .refresh _ => response = sendProblem isProd (AppError.redis.exception T) []
  | .logout _ => response = sendProblem isProd (revocationUnavailable.exception T) []
  | .githubCallback _ => response = ⟨302, some "/login?error=github-oauth-failed", none, []⟩ ∨
      response = sendProblem isProd (AppError.redis.exception T) []

theorem respond_outage {r : SessionRequest} {w : World} :
    Always (machine P).recorded (anyhow P).recorded i
      (fun res w' => ∃ response, res = .ok response ∧
        (RedisFailed w'.2 → Outage T isProd response r))
      (r.respond T isProd P authorizeUrl) (w, []) := by
  cases r with
  | login body =>
    simp only [SessionRequest.respond]
    split
    · refine ⟨_, rfl, ?_⟩
      rintro ⟨call, member, -⟩
      cases member
    · refine (filtered_outage login_failsOn).mono fun res w' sent => ?_
      obtain ⟨handled, rfl, ends⟩ := sent
      refine ⟨_, rfl, fun outage => ?_⟩
      obtain ⟨_, rfl, rfl⟩ := ends outage
      rfl
  | refresh token =>
    refine (filtered_outage refresh_failsOn).mono fun res w' sent => ?_
    obtain ⟨handled, rfl, ends⟩ := sent
    refine ⟨_, rfl, fun outage => ?_⟩
    obtain ⟨_, rfl, rfl⟩ := ends outage
    rfl
  | logout token =>
    refine (filtered_outage logout_failsOn).mono fun res w' sent => ?_
    obtain ⟨handled, rfl, ends⟩ := sent
    refine ⟨_, rfl, fun outage => ?_⟩
    obtain ⟨_, rfl, rfl⟩ := ends outage
    rfl
  | githubCallback query =>
    refine (filtered_outage githubCallback_failsOn).mono fun res w' sent => ?_
    obtain ⟨handled, rfl, ends⟩ := sent
    refine ⟨_, rfl, fun outage => ?_⟩
    obtain ⟨_, rfl | rfl, rfl⟩ := ends outage
    · exact .inl rfl
    · exact .inr rfl

/-- Whatever fails, a request that ends has been answered: no exception gets past the filters. -/
theorem respond_ok {r : SessionRequest} {w w' : World} {res : Except AppError HttpResponse}
    (run : Runs (machine P) (anyhow P) i (r.respond T isProd P authorizeUrl) w res w') :
    ∃ response, res = .ok response := by
  obtain ⟨log, recorded⟩ := run.recorded []
  obtain ⟨response, answered, -⟩ := respond_outage.runs recorded
  exact ⟨response, answered⟩

/-- A problem, or a redirect to the sign-in page that names an error. -/
def HttpResponse.IsError (response : HttpResponse) : Prop :=
  400 ≤ response.status ∨
    response.status = 302 ∧ ∃ slug, response.location = some ("/login?error=" ++ slug)

def SessionRequest.isRefresh : SessionRequest → Bool
  | .refresh _ => true
  | _ => false

def SessionRequest.isLogout : SessionRequest → Bool
  | .logout _ => true
  | _ => false

/-- When Redis failed the request, its response is an error without cookies, and a 503 where the
request was a refresh or a logout. -/
def FailsClosed (r : SessionRequest) (log : List (Call api)) (response : HttpResponse) : Prop :=
  RedisFailed log → response.IsError ∧ response.setCookie = [] ∧
    (r.isRefresh = true ∨ r.isLogout = true → response.status = 503)

theorem Outage.isError {r : SessionRequest} {response : HttpResponse}
    (outage : Outage T isProd response r) : response.IsError ∧ response.setCookie = [] := by
  cases r with
  | login body | refresh token =>
    subst outage
    exact ⟨.inl (show 400 ≤ 500 by decide), rfl⟩
  | logout token =>
    subst outage
    exact ⟨.inl (show 400 ≤ 503 by decide), rfl⟩
  | githubCallback query =>
    rcases outage with rfl | rfl
    · exact ⟨.inr ⟨rfl, "github-oauth-failed", rfl⟩, rfl⟩
    · exact ⟨.inl (show 400 ≤ 500 by decide), rfl⟩

/-- Whatever fails and whatever happens in between, a request that Redis failed is answered with an
error and without cookies; and it fails closed as it should unless it is a refresh. -/
theorem outage_fails_closed_iff {r : SessionRequest} {w : World} {res : Except AppError HttpResponse}
    {w' : World × List (Call api)}
    (run : Runs (machine P).recorded (anyhow P).recorded i (r.respond T isProd P authorizeUrl)
      (w, []) res w') :
    ∃ response, res = .ok response ∧
      (RedisFailed w'.2 → response.IsError ∧ response.setCookie = []) ∧
      (FailsClosed r w'.2 response ↔ ¬(r.isRefresh = true ∧ RedisFailed w'.2)) := by
  obtain ⟨response, rfl, ends⟩ := respond_outage.runs run
  refine ⟨response, rfl, fun failed => (ends failed).isError, ?_⟩
  constructor
  · rintro closed ⟨refreshes, failed⟩
    -- nothing makes a 503 of the error that leaves `rotateRefresh`
    have unavailable := (closed failed).2.2 (.inl refreshes)
    have outage := ends failed
    cases r with
    | refresh token =>
      rw [Outage] at outage
      subst outage
      cases unavailable
    | _ => cases refreshes
  · intro spared failed
    have outage := ends failed
    refine ⟨outage.isError.1, outage.isError.2, fun named => ?_⟩
    cases r with
    | logout token =>
      rw [Outage] at outage
      subst outage
      rfl
    | refresh token => exact absurd ⟨rfl, failed⟩ spared
    | login body | githubCallback query => rcases named with wrong | wrong <;> cases wrong

/-! ### Concrete runs -/

theorem redisFailed_iff {log : List (Call api)} :
    RedisFailed log ↔ (log.any fun call => call.cmd.onRedis && !call.res.isOk) = true := by
  rw [RedisFailed, List.any_eq_true]
  refine exists_congr fun call => and_congr_right fun _ => ?_
  rw [Bool.and_eq_true]
  refine and_congr_right fun _ => ?_
  cases call.res with
  | ok a => exact iff_of_false (fun ⟨_, wrong⟩ => by cases wrong) Bool.false_ne_true
  | error e => exact iff_of_true ⟨e, rfl⟩ rfl

def sessionToken : Token :=
  .jwt ⟨Platform.plain.jwtRefreshSecret,
    ⟨"u", "u@ab.cd", some REFRESH_TOKEN_TYPE, some "jti", some "family"⟩, 0, 1000⟩

/-- A logout whose DEL fails. -/
theorem outage_fails_closed_logout :
    ∃ response log w', Runs (machine Platform.plain).recorded (anyhow Platform.plain).recorded 0
        ((SessionRequest.logout (some sessionToken)).respond .plain true .plain id)
        (World.empty 5000, []) (.ok response) (w', log) ∧
      RedisFailed log ∧ FailsClosed (.logout (some sessionToken)) log response := by
  obtain ⟨res, ⟨w', log⟩, run, passed⟩ := exists_runs_of_replay
    (M := (machine Platform.plain).recorded) (K := (anyhow Platform.plain).recorded) (i := 0)
    (p := (SessionRequest.logout (some sessionToken)).respond .plain true .plain id)
    (w := (World.empty 5000, [])) (fun w => ⟨trivial, rfl⟩)
    [{}, { fault := some 0 }] (fun _ _ _ _ => trivial)
    (fun x => x.2.2.any fun call => call.cmd.onRedis && !call.res.isOk) (by decide +kernel)
  obtain ⟨response, rfl, -, closed⟩ := outage_fails_closed_iff run
  refine ⟨response, log, w', run, redisFailed_iff.mpr passed, closed.mpr ?_⟩
  rintro ⟨wrong, -⟩
  cases wrong

/-- A refresh whose GET fails is answered with 500. -/
theorem outage_of_refresh :
    ∃ response log w', Runs (machine Platform.plain).recorded (anyhow Platform.plain).recorded 0
        ((SessionRequest.refresh (some sessionToken)).respond .plain true .plain id)
        (World.empty 5000, []) (.ok response) (w', log) ∧
      response.status = 500 ∧ ¬FailsClosed (.refresh (some sessionToken)) log response := by
  obtain ⟨res, ⟨w', log⟩, run, passed⟩ := exists_runs_of_replay
    (M := (machine Platform.plain).recorded) (K := (anyhow Platform.plain).recorded) (i := 0)
    (p := (SessionRequest.refresh (some sessionToken)).respond .plain true .plain id)
    (w := (World.empty 5000, [])) (fun w => ⟨trivial, rfl⟩)
    [{}, { fault := some 0 }] (fun _ _ _ _ => trivial)
    (fun x => (x.2.2.any fun call => call.cmd.onRedis && !call.res.isOk) &&
      decide (x.1.map HttpResponse.status = .ok 500)) (by decide +kernel)
  rw [Bool.and_eq_true, decide_eq_true_eq] at passed
  obtain ⟨failed, answered⟩ := passed
  cases res with
  | error e => cases answered
  | ok response =>
    have status : response.status = 500 := Except.ok.inj answered
    refine ⟨response, log, w', run, status, fun closed => ?_⟩
    have unavailable := (closed (redisFailed_iff.mpr failed)).2.2 (.inl rfl)
    rw [status] at unavailable
    cases unavailable

end Mikrouli
