import Mikrouli.Properties.Outage

/-! `POST /auth/refresh` step by step: what it has stored and what it has put on its response when
something fails. -/

namespace Mikrouli

open Async Store

variable {P : Platform} {T : TextChecks} {isProd : Bool} {authorizeUrl : String → String} {i : Nat}

/-! ### Runs -/

/-- A refresh, any command of which may fail, while time passes and users are deleted. -/
abbrev refreshing (P : Platform) : Setting (machine P) where
  allow _ _ _ := True
  drift w w' := ∃ ms gone, w' = { w.advance ms with users := w.users.delete gone }

theorem refreshing_still (w : World) : (refreshing P).drift w w := by
  refine ⟨0, fun _ => false, ?_⟩
  have kept : w.users.delete (fun _ => false) = w.users := Table.eq_of_rows (by simp [Table.delete])
  rw [kept]
  rfl

section Steps

variable {w : World} {log : List (Call api)}

theorem refreshing_perform {c : Cmd} {Q : Except AppError c.Res → World × List (Call api) → Prop}
    (post : ∀ ch res w₀ w', w.now ≤ w₀.now → w₀.redis = w.redis →
      exec P i c ch w₀ = some (res, w') → Q res (w', ⟨c, res⟩ :: log)) :
    Always (machine P).recorded (refreshing P).recorded i Q (await c) (w, log) := by
  apply Always.recorded_perform
  rintro _ ⟨ms, gone, rfl⟩ ch res w' _ returned
  exact post ch res { w.advance ms with users := w.users.delete gone } w'
    (Nat.le_add_right _ _) rfl returned

/-- The request has stored a refresh family. -/
def Created (log : List (Call api)) (family : String) : Prop :=
  ∃ jti ex, ⟨.redisSet (buildRevocationKey family) jti ex, .ok ()⟩ ∈ log

def StoredFamily (log : List (Call api)) : Prop := ∃ family, Created log family

theorem created_cons {call : Call api} {family : String} :
    Created (call :: log) family ↔
      (∃ jti ex, call = ⟨.redisSet (buildRevocationKey family) jti ex, .ok ()⟩) ∨
        Created log family := by
  simp only [Created, List.mem_cons, exists_or]
  exact or_congr_left (exists_congr fun jti => exists_congr fun ex => eq_comm)

def Cmd.sets : Cmd → Bool
  | .redisSet _ _ _ => true
  | _ => false

theorem created_cons_of_other {c : Cmd} {res : Except AppError c.Res} (other : c.sets = false)
    {family : String} : Created (⟨c, res⟩ :: log) family ↔ Created log family := by
  rw [created_cons, or_iff_right]
  rintro ⟨jti, ex, same⟩
  cases same
  cases other

theorem created_cons_of_error {c : Cmd} {e : AppError} {family : String} :
    Created (⟨c, .error e⟩ :: log) family ↔ Created log family := by
  rw [created_cons, or_iff_right]
  rintro ⟨jti, ex, same⟩
  cases same

/-- So far the request has stored nothing, and time has only gone on since `start`. -/
structure Pending (start : Nat) (w : World) (log : List (Call api)) : Prop where
  begun : start ≤ w.now
  unstored : ¬StoredFamily log

theorem Pending.perform {start : Nat} (pending : Pending start w log) {c : Cmd}
    (other : c.sets = false) {Q : Except AppError c.Res → World × List (Call api) → Prop}
    (post : ∀ ch res w₀ w', w.now ≤ w₀.now → exec P i c ch w₀ = some (res, w') →
      Pending start w' (⟨c, res⟩ :: log) → Q res (w', ⟨c, res⟩ :: log)) :
    Always (machine P).recorded (refreshing P).recorded i Q (await c) (w, log) := by
  apply refreshing_perform
  intro ch res w₀ w' le _ returned
  have clock := (exec_frame returned).now
  refine post ch res w₀ w' le returned ⟨?_, ?_⟩
  · rw [clock]
    exact pending.begun.trans le
  · rintro ⟨family, created⟩
    exact pending.unstored ⟨family, (created_cons_of_other other).mp created⟩

/-! ### What a rotation grants -/

/-- The request has stored one family, until `deadline`, and holds the tokens that go with it; they
expire no later. -/
structure Granted (w : World) (log : List (Call api)) (issued : IssuedTokens) (jti family : String)
    (deadline : Nat) : Prop where
  entry : w.redis (buildRevocationKey family) = some ⟨jti, some deadline⟩
  created : ∀ family', Created log family' ↔ family' = family
  claims : issued.cookies.2.value.payload.jti = some jti ∧
    issued.cookies.2.value.payload.family = some family
  expires : 1000 * issued.cookies.1.value.exp ≤ deadline ∧
    1000 * issued.cookies.2.value.exp ≤ deadline

/-- What a refresh throws. -/
inductive Refusal : AppError → Prop
  | unauthorized : Refusal .unauthorized
  | redis : Refusal .redis
  | queryFailed : Refusal .queryFailed

/-- How a rotation that started at `start` ends: with a grant, or with nothing stored. -/
def RotationEnd (start : Nat) (r : Except AppError IssuedTokens) (w : World × List (Call api)) :
    Prop :=
  match r with
  | .error e => Refusal e ∧ ¬StoredFamily w.2
  | .ok issued => ∃ jti family deadline, Granted w.1 w.2 issued jti family deadline ∧
      start + 1000 * REFRESH_TOKEN_TTL_SECONDS ≤ deadline

theorem issueTokens_granted {user : User} {start : Nat} (pending : Pending start w log) :
    Always (machine P).recorded (refreshing P).recorded i (RotationEnd start)
      (AuthService.issueTokens P user) (w, log) := by
  apply Always.bind
  refine pending.perform rfl fun ch₁ res₁ w₁ w₁' le₁ returned₁ pending₁ => ?_
  obtain ⟨rfl, -⟩ := exec_randomUUID returned₁
  apply Always.bind
  refine pending₁.perform rfl fun ch₂ res₂ w₂ w₂' le₂ returned₂ pending₂ => ?_
  obtain ⟨rfl, -⟩ := exec_randomUUID returned₂
  apply Always.bind
  refine pending₂.perform rfl fun ch₃ res₃ w₃ w₃' le₃ returned₃ pending₃ => ?_
  have clock₃ := (exec_frame returned₃).now
  cases exec_sign returned₃
  apply Always.bind
  refine pending₃.perform rfl fun ch₄ res₄ w₄ w₄' le₄ returned₄ pending₄ => ?_
  have clock₄ := (exec_frame returned₄).now
  cases exec_sign returned₄
  apply Always.bind
  have positive : 0 < REFRESH_TOKEN_TTL_SECONDS := by decide
  simp only [setOrThrow, setWithOptionalTtl, positive, ↓reduceIte]
  apply refreshing_perform
  intro ch₅ res₅ w₅ w₅' le₅ _ returned₅
  -- the entry is stored now or not at all; its deadline counts from here, both expiries from before
  rcases exec_redisSet returned₅ with ⟨-, rfl, rfl⟩ | ⟨-, rfl, rfl⟩
  · refine ⟨.redis, ?_⟩
    rintro ⟨family, created⟩
    exact pending₄.unstored ⟨family, created_cons_of_error.mp created⟩
  · refine ⟨ch₁.draw, ch₂.draw, w₅.now + 1000 * REFRESH_TOKEN_TTL_SECONDS,
      ⟨Expiring.set_self _ _ _ _ _, fun family => ?_, ⟨rfl, rfl⟩, ?_⟩, ?_⟩
    · rw [created_cons]
      constructor
      -- the SET is the first thing the request has stored
      · rintro (⟨jti, ex, same⟩ | old)
        · injection same with set
          injection set with key
          exact (buildRevocationKey_inj key).symm
        · exact absurd ⟨family, old⟩ pending₄.unstored
      · rintro rfl
        exact .inl ⟨_, _, rfl⟩
    · have shorter : ACCESS_TOKEN_TTL_SECONDS ≤ REFRESH_TOKEN_TTL_SECONDS := by decide
      dsimp only
      omega
    · have := pending₄.begun
      omega

theorem decodeRefreshToken_pending {token : Token} {secret : String} {start : Nat}
    (pending : Pending start w log) :
    Always (machine P).recorded (refreshing P).recorded i
      (fun r w' => Pending start w'.1 w'.2 ∧ ∀ e, r = .error e → e = .unauthorized)
      (decodeRefreshToken token secret) (w, log) := by
  apply Always.tryCatch
  refine pending.perform rfl fun ch res w₀ w' _ _ pending' => ?_
  cases res with
  | ok payload => exact ⟨pending', fun e wrong => by cases wrong⟩
  | error e => exact ⟨pending', fun e thrown => by cases thrown; rfl⟩

theorem rotateRefresh_granted {token : Token} {start : Nat} (pending : Pending start w log) :
    Always (machine P).recorded (refreshing P).recorded i (RotationEnd start)
      (AuthService.rotateRefresh P token) (w, log) := by
  apply Always.bind
  refine (decodeRefreshToken_pending pending).mono fun r w₁ ⟨pending₁, thrown⟩ => ?_
  cases r with
  | error e =>
    cases thrown e rfl
    exact ⟨.unauthorized, pending₁.unstored⟩
  | ok payload =>
    simp only [assertRefreshType]
    split
    · exact ⟨.unauthorized, pending₁.unstored⟩
    simp only [assertRefreshClaims]
    split
    swap
    · exact ⟨.unauthorized, pending₁.unstored⟩
    next claims _ =>
      simp only [Prog.pure_eq, Prog.done_bind]
      apply Always.bind
      refine pending₁.perform rfl fun ch₂ res₂ w₂ w₂' _ returned₂ pending₂ => ?_
      rcases exec_redisGet returned₂ with ⟨rfl, ⟨-, rfl⟩ | ⟨-, rfl⟩⟩
      · exact ⟨.redis, pending₂.unstored⟩
      simp only
      split
      · exact ⟨.unauthorized, pending₂.unstored⟩
      split
      · apply Always.bind
        -- reuse of a rotated token: its family is deleted, and nothing else
        refine pending₂.perform rfl fun ch₃ res₃ w₃ w₃' _ returned₃ pending₃ => ?_
        rcases exec_redisDel returned₃ with ⟨-, rfl, -⟩ | ⟨-, rfl, -⟩
        · exact ⟨.redis, pending₃.unstored⟩
        · exact ⟨.unauthorized, pending₃.unstored⟩
      · apply Always.bind
        refine pending₂.perform rfl fun ch₃ res₃ w₃ w₃' _ returned₃ pending₃ => ?_
        -- the first lookup of the user, before anything is stored
        rcases exec_findUserById returned₃ with ⟨-, ⟨-, rfl⟩ | rfl⟩
        · exact ⟨.queryFailed, pending₃.unstored⟩
        simp only
        split
        · exact ⟨.unauthorized, pending₃.unstored⟩
        · exact issueTokens_granted pending₃

/-! ### The second lookup -/

/-- The last thing the request did was to look its user up, and the row was there. -/
def Confirmed (log : List (Call api)) : Prop :=
  ∃ id user, log.head? = some ⟨.findUserById id, .ok (some user)⟩

theorem confirmed_cons {id : String} {res : Except AppError (Option User)} :
    Confirmed (⟨.findUserById id, res⟩ :: log) ↔ ∃ user, res = .ok (some user) := by
  constructor
  · rintro ⟨_, user, same⟩
    injection same with same
    injection same with cmd found
    injection cmd with same_id
    subst same_id
    exact ⟨user, found⟩
  · rintro ⟨user, rfl⟩
    exact ⟨id, user, rfl⟩

/-- How the handler ends: refused with nothing stored; or with a grant on its response, which the
second lookup then confirms or not. -/
inductive RefreshEnd (start : Nat) : Handled → World → List (Call api) → Prop
  | refused {e : AppError} {w : World} {log : List (Call api)} (refusal : Refusal e)
      (unstored : ¬StoredFamily log) : RefreshEnd start ⟨[], .error e⟩ w log
  | confirmed {issued : IssuedTokens} {jti family : String} {deadline : Nat} {user : PublicUser}
      {w : World} {log : List (Call api)} (granted : Granted w log issued jti family deadline)
      (lasts : start + 1000 * REFRESH_TOKEN_TTL_SECONDS ≤ deadline) (confirmed : Confirmed log) :
      RefreshEnd start ⟨applySessionCookies issued, .ok (.profile user)⟩ w log
  | abandoned {issued : IssuedTokens} {jti family : String} {deadline : Nat} {e : AppError}
      {w : World} {log : List (Call api)} (granted : Granted w log issued jti family deadline)
      (lasts : start + 1000 * REFRESH_TOKEN_TTL_SECONDS ≤ deadline) (refusal : Refusal e)
      (unconfirmed : ¬Confirmed log) :
      RefreshEnd start ⟨applySessionCookies issued, .error e⟩ w log

theorem Granted.lookup {w' : World} {issued : IssuedTokens} {jti family : String} {deadline : Nat}
    (granted : Granted w log issued jti family deadline) (same : w'.redis = w.redis) {id : String}
    {res : Except AppError (Option User)} :
    Granted w' (⟨.findUserById id, res⟩ :: log) issued jti family deadline where
  entry := by rw [same]; exact granted.entry
  created family' := (created_cons_of_other rfl).trans (granted.created family')
  claims := granted.claims
  expires := granted.expires

theorem refresh_ends {token : Option Token} :
    Always (machine P).recorded (refreshing P).recorded i
      (fun r w' => ∃ handled, r = .ok (handled.send T isProd) ∧
        RefreshEnd w.now handled w'.1 w'.2)
      (filtered (SessionRoutes.refresh P token) (Handled.send T isProd)) (w, []) := by
  apply Always.map
  apply Always.tryCatch
  have blank : ¬StoredFamily [] := by
    rintro ⟨family, jti, ex, none⟩
    cases none
  cases token with
  | none => exact ⟨_, rfl, .refused .unauthorized blank⟩
  | some token =>
    apply Always.bind
    refine (rotateRefresh_granted ⟨le_rfl, blank⟩).mono fun r w₁ ends => ?_
    cases r with
    | error e => exact ⟨_, rfl, .refused ends.1 ends.2⟩
    | ok issued =>
      obtain ⟨jti, family, deadline, granted, lasts⟩ := ends
      apply Always.tryCatch
      apply Always.bind
      apply Always.bind
      apply refreshing_perform
      intro ch res _ w₂ _ same returned
      obtain ⟨rfl, found⟩ := exec_findUserById returned
      -- the cookies are on the response; what the second lookup finds decides the rest
      rcases found with ⟨-, rfl⟩ | rfl
      · refine ⟨_, rfl, .abandoned (granted.lookup same) lasts .queryFailed ?_⟩
        rw [confirmed_cons]
        rintro ⟨user, wrong⟩
        cases wrong
      · cases found : w₂.userById i issued.tokens.accessToken.payload.sub with
        | none =>
          refine ⟨_, rfl, .abandoned (granted.lookup same) lasts .unauthorized ?_⟩
          rw [confirmed_cons]
          rintro ⟨user, wrong⟩
          cases wrong
        | some user =>
          exact ⟨_, rfl, .confirmed (granted.lookup same) lasts (confirmed_cons.mpr ⟨user, rfl⟩)⟩

end Steps

/-! ### The response -/

/-- The server would take the token. -/
def Usable (P : Platform) (w : World) (t : Jwt) : Prop :=
  (t.secret = P.jwtSecret ∨ t.secret = P.jwtRefreshSecret) ∧ w.now / 1000 < t.exp

/-- The response sets the tokens of the one family that the request stored, and Redis holds their
jti. -/
def GrantsAll (w : World) (log : List (Call api)) (response : HttpResponse) : Prop :=
  ∃ access refresh jti family,
    response.setCookie = [.session access, .session refresh] ∧
    refresh.value.payload.jti = some jti ∧ refresh.value.payload.family = some family ∧
    w.redis.get w.now (buildRevocationKey family) = some jti ∧
    ∀ family', Created log family' → family' = family

/-- The response sets no usable token, and Redis holds no family that the request stored. -/
def GrantsNothing (P : Platform) (w : World) (log : List (Call api)) (response : HttpResponse) :
    Prop :=
  (∀ cookie, .session cookie ∈ response.setCookie → ¬Usable P w cookie.value) ∧
    ∀ family, Created log family → w.redis.get w.now (buildRevocationKey family) = none

def AllOrNothing (P : Platform) (w : World) (log : List (Call api)) (response : HttpResponse) :
    Prop :=
  if response.status = 200 then GrantsAll w log response else GrantsNothing P w log response

/-- What the request stored is still there. -/
def Lasting (w : World) (log : List (Call api)) : Prop :=
  ∀ family, Created log family → w.redis.get w.now (buildRevocationKey family) ≠ none

theorem Refusal.status {e : AppError} (refusal : Refusal e) {setCookie : List CookieHeader} :
    (Handled.send T isProd ⟨setCookie, .error e⟩).status ≠ 200 := by
  cases refusal with
  | unauthorized => exact show (401 : Nat) ≠ 200 by decide
  | redis | queryFailed => exact show (500 : Nat) ≠ 200 by decide

theorem Granted.stored {w : World} {log : List (Call api)} {issued : IssuedTokens}
    {jti family : String} {deadline : Nat} (granted : Granted w log issued jti family deadline) :
    StoredFamily log :=
  ⟨family, (granted.created family).mpr rfl⟩

/-- The entry of a grant is there until its deadline. -/
theorem Granted.get {w : World} {log : List (Call api)} {issued : IssuedTokens}
    {jti family : String} {deadline : Nat} (granted : Granted w log issued jti family deadline) :
    w.redis.get w.now (buildRevocationKey family) =
      if w.now < deadline then some jti else none := by
  simp [Expiring.get, granted.entry, Stamped.liveAt]

theorem Granted.lasting_iff {w : World} {log : List (Call api)} {issued : IssuedTokens}
    {jti family : String} {deadline : Nat} (granted : Granted w log issued jti family deadline) :
    Lasting w log ↔ w.now < deadline := by
  constructor
  · intro lasting
    have there := lasting family ((granted.created family).mpr rfl)
    rw [granted.get] at there
    by_contra late
    exact there (if_neg late)
  · intro ahead family' created
    rw [(granted.created family').mp created, granted.get, if_pos ahead]
    exact Option.some_ne_none _

/-- A response with a grant that is a success has everything exactly as long as the entry lasts. -/
theorem Granted.grantsAll_iff {w : World} {log : List (Call api)} {issued : IssuedTokens}
    {jti family : String} {deadline : Nat} (granted : Granted w log issued jti family deadline)
    {response : HttpResponse} (cookies : response.setCookie = applySessionCookies issued) :
    GrantsAll w log response ↔ Lasting w log := by
  rw [granted.lasting_iff]
  constructor
  · rintro ⟨access, refresh, jti', family', set, -, -, there, only⟩
    have own := only family ((granted.created family).mpr rfl)
    rw [← own, granted.get] at there
    by_contra late
    rw [if_neg late] at there
    cases there
  · intro ahead
    refine ⟨issued.cookies.1, issued.cookies.2, jti, family, cookies, granted.claims.1,
      granted.claims.2, ?_, fun family' created => (granted.created family').mp created⟩
    rw [granted.get, if_pos ahead]

/-- And one that is an error has granted nothing exactly when the entry is gone: the tokens expire
with it. -/
theorem Granted.grantsNothing_iff {w : World} {log : List (Call api)} {issued : IssuedTokens}
    {jti family : String} {deadline : Nat} (granted : Granted w log issued jti family deadline)
    {response : HttpResponse} (cookies : response.setCookie = applySessionCookies issued) :
    GrantsNothing P w log response ↔ ¬Lasting w log := by
  rw [granted.lasting_iff]
  constructor
  · rintro ⟨-, gone⟩ ahead
    have absent := gone family ((granted.created family).mpr rfl)
    rw [granted.get, if_pos ahead] at absent
    cases absent
  · intro late
    constructor
    · rintro cookie member ⟨-, ahead⟩
      have bounds := granted.expires
      rw [cookies] at member
      simp only [applySessionCookies, List.mem_cons, CookieHeader.session.injEq,
        List.not_mem_nil, or_false] at member
      rcases member with rfl | rfl
      · omega
      · omega
    · intro family' created
      rw [(granted.created family').mp created, granted.get, if_neg late]

theorem RefreshEnd.allOrNothing_iff {start : Nat} {handled : Handled} {w : World}
    {log : List (Call api)} (ends : RefreshEnd start handled w log) :
    AllOrNothing P w log (handled.send T isProd) ↔
      (StoredFamily log → (Confirmed log ↔ Lasting w log)) := by
  unfold AllOrNothing
  cases ends with
  | refused refusal unstored =>
    rw [if_neg refusal.status]
    refine iff_of_true ⟨fun cookie member => ?_, fun family created => ?_⟩ ?_
    · cases member
    · exact absurd ⟨family, created⟩ unstored
    · exact fun stored => absurd stored unstored
  | confirmed granted lasts confirmed =>
    have status {setCookie : List CookieHeader} {user : PublicUser} :
        (Handled.send T isProd ⟨setCookie, .ok (.profile user)⟩).status = 200 := rfl
    rw [if_pos status, granted.grantsAll_iff rfl]
    simp only [granted.stored, confirmed, forall_const, true_iff]
  | abandoned granted lasts refusal unconfirmed =>
    rw [if_neg refusal.status, granted.grantsNothing_iff rfl]
    simp only [granted.stored, unconfirmed, forall_const, false_iff]

theorem RefreshEnd.lasting {start : Nat} {handled : Handled} {w : World} {log : List (Call api)}
    (ends : RefreshEnd start handled w log) (stored : StoredFamily log)
    (early : w.now < start + 1000 * REFRESH_TOKEN_TTL_SECONDS) : Lasting w log := by
  cases ends with
  | refused refusal unstored => exact absurd stored unstored
  | confirmed granted lasts _ | abandoned granted lasts _ _ =>
    exact granted.lasting_iff.mpr (early.trans_le lasts)

/-- All or nothing, but for a refresh whose family is stored and whose second lookup then fails or
finds the row gone: it is an error with everything on it. -/
theorem refresh_all_or_nothing_iff {token : Option Token} {w : World}
    {res : Except AppError HttpResponse} {w' : World × List (Call api)}
    (run : Runs (machine P).recorded (refreshing P).recorded i
      ((SessionRequest.refresh token).respond T isProd P authorizeUrl) (w, []) res w') :
    ∃ response, res = .ok response ∧
      (AllOrNothing P w'.1 w'.2 response ↔
        (StoredFamily w'.2 → (Confirmed w'.2 ↔ Lasting w'.1 w'.2))) ∧
      (w'.1.now < w.now + 1000 * REFRESH_TOKEN_TTL_SECONDS →
        (AllOrNothing P w'.1 w'.2 response ↔ (StoredFamily w'.2 → Confirmed w'.2))) := by
  obtain ⟨handled, rfl, ends⟩ := refresh_ends.runs run
  have whole : AllOrNothing P w'.1 w'.2 (handled.send T isProd) ↔ _ := ends.allOrNothing_iff
  refine ⟨_, rfl, whole, fun early => whole.trans ?_⟩
  exact forall_congr' fun stored => iff_true_right (ends.lasting stored early)

/-! ### Concrete runs -/

def confirms (log : List (Call api)) : Bool :=
  match log.head? with
  | some ⟨.findUserById _, .ok (some _)⟩ => true
  | _ => false

theorem confirmed_of_confirms {log : List (Call api)} (confirms : confirms log = true) :
    Confirmed log := by
  unfold Mikrouli.confirms at confirms
  split at confirms
  next id user head => exact ⟨id, user, head⟩
  · cases confirms

/-- The user of `sessionToken`, whose family Redis has. -/
def sessionWorld : World := { World.empty 5000 with
  redis := Expiring.empty.set 0 (buildRevocationKey "family") "jti" (some REFRESH_TOKEN_TTL_SECONDS)
  users := ⟨[⟨⟨"u", "u@ab.cd", none, none, none, 1000⟩, none⟩], by simp⟩ }

def freshAccessCookie : SetCookie :=
  ⟨ACCESS_COOKIE_NAME, ⟨Platform.plain.jwtSecret, ⟨"u", "u@ab.cd", none, none, none⟩, 5, 905⟩,
    ACCESS_COOKIE_PATH, ACCESS_TOKEN_TTL_SECONDS⟩

/-- A refresh that goes through. -/
theorem refresh_all_or_nothing_signedIn :
    ∃ response w' log, Runs (machine Platform.plain).recorded (refreshing Platform.plain).recorded 0
        ((SessionRequest.refresh (some sessionToken)).respond .plain true .plain id)
        (sessionWorld, []) (.ok response) (w', log) ∧
      response.status = 200 ∧ AllOrNothing .plain w' log response := by
  obtain ⟨res, ⟨w', log⟩, run, passed⟩ := exists_runs_of_replay
    (M := (machine Platform.plain).recorded) (K := (refreshing Platform.plain).recorded) (i := 0)
    (p := (SessionRequest.refresh (some sessionToken)).respond .plain true .plain id)
    (w := (sessionWorld, [])) (fun w => ⟨refreshing_still w.1, rfl⟩)
    [{}, {}, {}, { draw := "j" }, { draw := "f" }, {}, {}, {}, {}] (fun _ _ _ _ => trivial)
    (fun x => confirms x.2.2 && decide (x.2.1.now = 5000) &&
      decide (x.1.map HttpResponse.status = .ok 200)) (by decide +kernel)
  simp only [Bool.and_eq_true, decide_eq_true_eq] at passed
  obtain ⟨⟨confirms, clock⟩, answered⟩ := passed
  obtain ⟨response, rfl, -, early⟩ := refresh_all_or_nothing_iff run
  have whole := early (by rw [clock]; decide)
  exact ⟨response, w', log, run, Except.ok.inj answered,
    whole.mpr fun _ => confirmed_of_confirms confirms⟩

/-- A refresh whose second lookup fails: a 500 that sets the new tokens, whose family Redis has. -/
theorem refresh_of_failed_lookup :
    ∃ response w' log, Runs (machine Platform.plain).recorded (refreshing Platform.plain).recorded 0
        ((SessionRequest.refresh (some sessionToken)).respond .plain true .plain id)
        (sessionWorld, []) (.ok response) (w', log) ∧
      response.status = 500 ∧ .session freshAccessCookie ∈ response.setCookie ∧
      w'.redis.get w'.now (buildRevocationKey "f") = some "j" ∧
      ¬AllOrNothing .plain w' log response := by
  obtain ⟨res, ⟨w', log⟩, run, passed⟩ := exists_runs_of_replay
    (M := (machine Platform.plain).recorded) (K := (refreshing Platform.plain).recorded) (i := 0)
    (p := (SessionRequest.refresh (some sessionToken)).respond .plain true .plain id)
    (w := (sessionWorld, [])) (fun w => ⟨refreshing_still w.1, rfl⟩)
    [{}, {}, {}, { draw := "j" }, { draw := "f" }, {}, {}, {}, { fault := some 0 }]
    (fun _ _ _ _ => trivial)
    (fun x => decide (x.2.1.now = 5000) &&
      decide (x.2.1.redis.get x.2.1.now (buildRevocationKey "f") = some "j") &&
      match x.1 with
      | .ok response => decide (response.status = 500) &&
          decide (.session freshAccessCookie ∈ response.setCookie)
      | .error _ => false) (by decide +kernel)
  simp only [Bool.and_eq_true, decide_eq_true_eq] at passed
  obtain ⟨⟨clock, there⟩, answered⟩ := passed
  cases res with
  | error e => cases answered
  | ok response =>
    simp only [Bool.and_eq_true, decide_eq_true_eq] at answered
    refine ⟨response, w', log, run, answered.1, answered.2, there, fun whole => ?_⟩
    rw [AllOrNothing, if_neg (by rw [answered.1]; decide)] at whole
    refine whole.1 freshAccessCookie answered.2 ⟨.inl rfl, ?_⟩
    rw [clock]
    decide

end Mikrouli
