import Mikrouli.Model.JwtStrategy
import Mikrouli.Properties.Alone

/-! Refresh tokens when something fails: what a rotation needs before it answers with tokens, what
a failed call leaves in Redis, and why neither kind of token passes for the other. -/

namespace Mikrouli

open Async Store

variable {P : Platform} {allowed : Choice → Prop} {i : Nat} {w w' : World} {token : Token}

/-! ### Verification -/

/-- The presented token carries this payload, whatever its signature. -/
def Token.Carries (token : Token) (payload : JwtPayload) : Prop :=
  ∃ t : Jwt, token = .jwt t ∧ t.payload = payload

/-- A verification answers with what the token carries, or fails; the world stays as it is. -/
theorem alone_verify {secret : String} {Q : Except AppError JwtPayload → World → Prop}
    (invalid : ∀ ms, Q (.error .jwtInvalid) (w.advance ms))
    (valid : ∀ ms payload, token.Carries payload → Q (.ok payload) (w.advance ms)) :
    Always (machine P) (alone P allowed) i Q (await (.verify secret token)) w := by
  apply alone_await
  intro ms ch res w' _ returned
  cases token with
  | other s =>
    simp only [exec] at returned
    cases returned
    exact invalid ms
  | jwt t =>
    obtain ⟨rfl, ⟨rfl, -, -⟩ | ⟨rfl, -⟩⟩ := exec_verify_jwt returned
    · exact valid ms t.payload ⟨t, rfl, rfl⟩
    · exact invalid ms

/-! ### Rotation -/

/-- What a rotation on its own can do. -/
inductive Rotation (P : Platform) (allowed : Choice → Prop) (i : Nat) (token : Token) (w : World) :
    Except AppError IssuedTokens → World → Prop
  | refused {e : AppError} (ms : Nat) : Rotation P allowed i token w (.error e) (w.advance ms)
  | reused {payload : JwtPayload} {jti family stored : String} {ms ms' : Nat}
      (carries : token.Carries payload) (claims : refreshClaims payload = some (jti, family))
      (listed : w.redis.get (w.now + ms) (buildRevocationKey family) = some stored)
      (other : stored ≠ jti) :
      Rotation P allowed i token w (.error .unauthorized)
        { w.advance ms' with redis := w.redis.del (buildRevocationKey family) }
  | accepted {payload : JwtPayload} {jti family : String} {user : User} {ms ms' : Nat}
      {r : Except AppError IssuedTokens} {w' : World} (carries : token.Carries payload)
      (type : payload.type = some REFRESH_TOKEN_TYPE)
      (claims : refreshClaims payload = some (jti, family))
      (listed : w.redis.get (w.now + ms) (buildRevocationKey family) = some jti)
      (found : w.userById i payload.sub = some user)
      (issues : Issues P allowed user (w.advance ms') r w') : Rotation P allowed i token w r w'

theorem World.advance_advance (w : World) (ms ms' : Nat) :
    (w.advance ms).advance ms' = w.advance (ms + ms') := by
  simp [World.advance, Nat.add_assoc]

theorem alone_rotateRefresh :
    Always (machine P) (alone P allowed) i (Rotation P allowed i token w)
      (AuthService.rotateRefresh P token) w := by
  apply Always.bind
  apply Always.tryCatch
  -- signature and expiry are behind it: from here on the payload decides
  refine alone_verify (fun ms => .refused ms) fun ms payload carries => ?_
  apply Always.bind
  rw [assertRefreshType]
  split
  · exact .refused ms
  next type =>
  rw [not_not] at type
  apply Always.bind
  rw [assertRefreshClaims]
  split
  next claims' claims =>
    obtain ⟨jti, family⟩ := claims'
    apply Always.bind
    -- a failing GET refuses, it is not read as a missing family
    refine alone_redisGet (fun _ ms' => ?_) fun ms' => ?_
    · rw [World.advance_advance]
      exact .refused _
    have now : (w.advance ms).now + ms' = w.now + (ms + ms') := Nat.add_assoc _ _ _
    rw [now]
    cases listed : (w.advance ms).redis.get (w.now + (ms + ms')) (buildRevocationKey family) with
    | none =>
      rw [World.advance_advance]
      exact .refused _
    | some stored =>
      simp only
      split
      next other =>
        -- a superseded token: its family goes, unless the deletion fails
        apply Always.bind
        refine alone_redisDel (fun _ ms'' => ?_) fun ms'' => ?_
        · rw [World.advance_advance, World.advance_advance]
          exact .refused _
        · have result : Rotation P allowed i token w (.error .unauthorized)
              { w.advance (ms + ms' + ms'') with
                redis := w.redis.del (buildRevocationKey family) } :=
            .reused carries claims listed other
          rw [← World.advance_advance, ← World.advance_advance] at result
          exact result
      next same =>
        rw [not_not] at same
        subst same
        apply Always.bind
        -- the listed id is the token's own, so what is left to fail is the user
        refine alone_findUserById (fun _ ms'' => ?_) fun _ ms'' => ?_
        · rw [World.advance_advance, World.advance_advance]
          exact .refused _
        rw [World.advance_advance, World.advance_advance]
        cases found : w.userById i payload.sub with
        | none =>
          have missing : (w.advance (ms + ms')).userById i payload.sub = none := found
          rw [missing]
          exact .refused _
        | some user =>
          have there : (w.advance (ms + ms')).userById i payload.sub = some user := found
          rw [there]
          exact alone_issueTokens.mono fun r w' issues =>
            .accepted carries type claims listed found issues
  · exact .refused ms

/-- What a revocation on its own can do. -/
inductive Revocation (token : Token) (w : World) : Except AppError Unit → World → Prop
  | nothing {r : Except AppError Unit} (ms : Nat) : Revocation token w r (w.advance ms)
  | revoked {payload : JwtPayload} {family : String} {ms : Nat} (carries : token.Carries payload)
      (claim : payload.family = some family) :
      Revocation token w (.ok ())
        { w.advance ms with redis := w.redis.del (buildRevocationKey family) }

theorem alone_revokeRefresh :
    Always (machine P) (alone P allowed) i (Revocation token w)
      (AuthService.revokeRefresh P token) w := by
  apply Always.bind
  apply Always.tryCatch
  apply Always.bind
  refine alone_verify (fun ms => .nothing ms) fun ms payload carries => ?_
  have rest : Always (machine P) (alone P allowed) i (Revocation token w)
      (AuthService.revokeFamily payload) (w.advance ms) := by
    rw [AuthService.revokeFamily]
    split
    · exact .nothing ms
    next family claim =>
      split
      · exact .nothing ms
      -- a deletion that fails leaves the entry as it is, and its error is thrown on
      · refine alone_redisDel (fun _ ms' => ?_) fun ms' => ?_
        · rw [World.advance_advance]
          exact .nothing _
        · have result : Revocation token w (.ok ())
              { w.advance (ms + ms') with redis := w.redis.del (buildRevocationKey family) } :=
            .revoked carries claim
          rw [← World.advance_advance] at result
          exact result
  exact rest

/-! ### The two kinds of tokens -/

/-- A rotation answers with tokens only for a payload of type `refresh`. -/
theorem Rotation.type {payload : JwtPayload} {issued : IssuedTokens}
    (rotation : Rotation P allowed i token w (.ok issued) w') (carries : token.Carries payload) :
    payload.type = some REFRESH_TOKEN_TYPE := by
  cases rotation with
  | accepted carries' type =>
    obtain ⟨t, rfl, rfl⟩ := carries
    obtain ⟨t', same, rfl⟩ := carries'
    cases same
    exact type

theorem alone_authenticate :
    Always (machine P) (alone P allowed) i
      (fun r _ => ∀ user, r = .ok user → ∃ payload, token.Carries payload ∧
        payload.type ≠ some REFRESH_TOKEN_TYPE ∧ user.id = payload.sub)
      (JwtStrategy.authenticate P token) w := by
  apply Always.bind
  apply Always.tryCatch
  refine alone_verify (fun ms => ?_) fun ms payload carries => ?_
  · rintro user ⟨⟩
  · have rest : Always (machine P) (alone P allowed) i
        (fun r _ => ∀ user, r = .ok user → ∃ payload, token.Carries payload ∧
          payload.type ≠ some REFRESH_TOKEN_TYPE ∧ user.id = payload.sub)
        (JwtStrategy.validate payload) (w.advance ms) := by
      unfold JwtStrategy.validate
      split
      next access =>
        rintro user ⟨⟩
        exact ⟨payload, carries, of_decide_eq_true access, rfl⟩
      · rintro user ⟨⟩
    exact rest

/-! ### Failing closed -/

/-- What stands behind a rotation that answers with tokens: Redis held the token's own id for its
family, and its user exists. -/
def Backs (i : Nat) (token : Token) (w : World) : Prop :=
  ∃ payload jti family ms user, token.Carries payload ∧
    payload.type = some REFRESH_TOKEN_TYPE ∧ refreshClaims payload = some (jti, family) ∧
    w.redis.get (w.now + ms) (buildRevocationKey family) = some jti ∧
    w.userById i payload.sub = some user

/-- A call that fails deletes at most the family of a token whose id is not the listed one. -/
def LeavesRefreshKeys (token : Token) (w w' : World) : Prop :=
  w'.redis = w.redis ∨ ∃ payload jti family stored ms, token.Carries payload ∧
    refreshClaims payload = some (jti, family) ∧
    w.redis.get (w.now + ms) (buildRevocationKey family) = some stored ∧ stored ≠ jti ∧
    w'.redis = w.redis.del (buildRevocationKey family)

theorem Issues.redis_of_error {user : User} {e : AppError}
    (issues : Issues P allowed user w (.error e) w') : w'.redis = w.redis := by
  cases issues with
  | failed _ _ _ _ _ redis => exact redis

/-- A session of one user, about to be renewed. -/
def renewable : World :=
  { World.empty 5000 with
    users := ⟨[⟨⟨"id0", "u@ab.cd", none, none, none, 1000⟩, none⟩], by simp [userKeys]⟩
    redis := Expiring.empty.set 1000 (buildRevocationKey "f") "j" (some REFRESH_TOKEN_TTL_SECONDS) }

def renewal : Token :=
  .jwt ⟨"refresh secret", ⟨"id0", "u@ab.cd", some "refresh", some "j", some "f"⟩, 1, 604801⟩

end Mikrouli
