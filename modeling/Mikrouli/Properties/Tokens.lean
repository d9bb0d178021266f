import Mikrouli.Model.Commands
import Mikrouli.Model.Footprint

/-! Refresh tokens in any interleaving: who drew their ids, who stored their allowlist entries
and who presented them. -/

namespace Mikrouli

open Async Store

variable {P : Platform}

/-! ### Events -/

/-- The allowlist entry that lets a refresh token be rotated: its key and its value. -/
def Jwt.entry? (t : Jwt) : Option (String × String) :=
  (refreshClaims t.payload).map fun (jti, family) => (buildRevocationKey family, jti)

def World.lists (w : World) (t : Jwt) : Bool :=
  t.entry?.any fun (key, jti) => decide (w.redis.get w.now key = some jti)

/-- The token a thread was asked to rotate. -/
def presented (es : Events P) : Option Jwt :=
  es.findSome? fun
    | .start (.rotateRefresh (.jwt t)) => some t
    | _ => none

/-- The token a thread was asked to revoke. -/
def revoking (es : Events P) : Option Jwt :=
  es.findSome? fun
    | .start (.revokeRefresh (.jwt t)) => some t
    | _ => none

def draws (x : String) : Event (mikrouli P) → Bool
  | .call .randomUUID (.ok (y : String)) => decide (y = x)
  | _ => false

def signs (t : Jwt) : Event (mikrouli P) → Bool
  | .call (.sign _ _ _) (.ok (t' : Jwt)) => decide (t' = t)
  | _ => false

def verifies (t : Jwt) : Event (mikrouli P) → Bool
  | .call (.verify _ (.jwt t')) (.ok _) => decide (t' = t)
  | _ => false

def checks : Event (mikrouli P) → Bool
  | .call (.verify _ _) _ => true
  | _ => false

def reads : Event (mikrouli P) → Bool
  | .call (.redisGet _) _ => true
  | _ => false

/-- The allowlist answered what the token needs to be rotated. -/
def passes (t : Jwt) : Event (mikrouli P) → Bool
  | .call (.redisGet key) (.ok (some (jti : String))) => decide (t.entry? = some (key, jti))
  | _ => false

/-- The allowlist entry of the token was stored. -/
def stores (t : Jwt) : Event (mikrouli P) → Bool
  | .call (.redisSet key jti _) (.ok _) => decide (t.entry? = some (key, jti))
  | _ => false

def stored : Event (mikrouli P) → Bool
  | .call (.redisSet _ _ _) (.ok _) => true
  | _ => false

/-- What ends a rotation that passed the allowlist: the store of the new token's entry, whatever
comes of it, or a user that cannot be read. -/
def settles : Event (mikrouli P) → Bool
  | .call (.redisSet _ _ _) _ => true
  | .call (.findUserById _) (.ok (some _)) => false
  | .call (.findUserById _) _ => true
  | _ => false

/-- A revocation of the token got to its end: its entry deleted, or the token found invalid. -/
def revokes (t : Jwt) : Event (mikrouli P) → Bool
  | .call (.redisDel key) (.ok _) => decide (t.entry?.map Prod.fst = some key)
  | .call (.verify secret (.jwt t')) (.error _) => decide (t' = t ∧ secret = P.jwtRefreshSecret)
  | _ => false

/-! ### Threads -/

/-- The thread verified the token it was presented and has not read the allowlist yet. -/
def mayPass (t : Jwt) (es : Events P) : Bool :=
  decide (presented es = some t) && es.any (verifies t) && !es.any reads

/-- The thread was let through with the token. -/
def passed (t : Jwt) (es : Events P) : Bool :=
  decide (presented es = some t) && es.any (passes t)

/-- The thread was let through with the token and has neither failed nor stored its successor. -/
def rotating (t : Jwt) (es : Events P) : Bool := passed t es && !es.any settles

/-- The thread was let through with the token and has stored its successor. -/
def accepted (t : Jwt) (es : Events P) : Bool := decide (presented es = some t) && es.any stored

/-- The thread signed the token and stored its allowlist entry. -/
def issued (t : Jwt) (es : Events P) : Bool := es.any (signs t) && es.any (stores t)

def revoked (t : Jwt) (es : Events P) : Bool :=
  decide (revoking es = some t) && es.any (revokes t)

/-- A call presented `t` and issued `t'`. -/
def Rotates (σ : Shared (mikrouli P)) (t t' : Jwt) : Prop :=
  ∃ i, presented (σ.own i) = some t ∧ issued t' (σ.own i) = true

/-- By any number of rotations. -/
def Descends (σ : Shared (mikrouli P)) : Jwt → Jwt → Prop := Relation.ReflTransGen (Rotates σ)

/-- The tokens descend from one, that of a login or an earlier one. -/
def SameLogin (σ : Shared (mikrouli P)) (t t' : Jwt) : Prop :=
  ∃ root, Descends σ root t ∧ Descends σ root t'

section Events

variable {t : Jwt} {es : Events P} {c : Cmd} {res : Except AppError c.Res}

theorem entry?_eq_some {key jti : String} :
    t.entry? = some (key, jti) ↔
      ∃ family, refreshClaims t.payload = some (jti, family) ∧ key = buildRevocationKey family := by
  constructor
  · intro entry
    obtain ⟨⟨jti', family⟩, claims, same⟩ := Option.map_eq_some_iff.mp entry
    cases same
    exact ⟨family, claims, rfl⟩
  · rintro ⟨family, claims, rfl⟩
    exact Option.map_eq_some_iff.mpr ⟨(jti, family), claims, rfl⟩

theorem refreshClaims_eq_some {payload : JwtPayload} {jti family : String} :
    refreshClaims payload = some (jti, family) ↔
      payload.jti = some jti ∧ payload.family = some family ∧ jti ≠ "" ∧ family ≠ "" := by
  unfold refreshClaims
  split
  next jti' family' hasJti hasFamily =>
    rw [hasJti, hasFamily]
    split
    next empty =>
      simp only [reduceCtorEq, false_iff, Option.some.injEq]
      rintro ⟨rfl, rfl, named, named'⟩
      exact empty.elim named named'
    next named =>
      push Not at named
      simp only [Option.some.injEq, Prod.mk.injEq]
      constructor
      · rintro ⟨rfl, rfl⟩
        exact ⟨rfl, rfl, named⟩
      · rintro ⟨rfl, rfl, -⟩
        exact ⟨rfl, rfl⟩
  next missing =>
    simp only [reduceCtorEq, false_iff]
    rintro ⟨hasJti, hasFamily, -⟩
    exact missing jti family hasJti hasFamily

theorem lists_eq_true {w : World} :
    w.lists t = true ↔
      ∃ key jti, t.entry? = some (key, jti) ∧ w.redis.get w.now key = some jti := by
  simp [World.lists, Option.any_eq_true]

@[simp] theorem presented_call : presented (.call c res :: es) = presented es := rfl

@[simp] theorem revoking_call : revoking (.call c res :: es) = revoking es := rfl

theorem stored_of_stores {e : Event (mikrouli P)} (stores : stores t e = true) :
    stored e = true := by
  unfold Mikrouli.stores at stores
  split at stores
  · rfl
  · cases stores

theorem settles_of_stored {e : Event (mikrouli P)} (stored : stored e = true) :
    settles e = true := by
  unfold Mikrouli.stored at stored
  split at stored
  · rfl
  · cases stored

theorem passed_eq_true :
    passed t es = true ↔ presented es = some t ∧ es.any (passes t) = true := by
  simp [passed]

theorem rotating_eq_true :
    rotating t es = true ↔ passed t es = true ∧ es.any settles = false := by
  simp [rotating]

theorem mayPass_eq_true :
    mayPass t es = true ↔
      presented es = some t ∧ es.any (verifies t) = true ∧ es.any reads = false := by
  simp [mayPass, and_assoc]

theorem accepted_eq_true :
    accepted t es = true ↔ presented es = some t ∧ es.any stored = true := by
  simp [accepted]

theorem issued_eq_true :
    issued t es = true ↔ es.any (signs t) = true ∧ es.any (stores t) = true := by
  simp [issued]

theorem revoked_eq_true :
    revoked t es = true ↔ revoking es = some t ∧ es.any (revokes t) = true := by
  simp [revoked]

end Events

/-! ### The ledger -/

/-- One thread drew the family and has stored an entry. -/
def Stored (σ : Shared (mikrouli P)) (family : String) : Prop :=
  ∃ s, (σ.own s).any (draws family) = true ∧ (σ.own s).any stored = true

/-- The token's entry has been stored, by the thread that drew its family. -/
def Settled (σ : Shared (mikrouli P)) (t : Jwt) : Prop :=
  ∃ jti family, refreshClaims t.payload = some (jti, family) ∧ Stored σ family

/-- Ids are drawn once, an entry is only stored under a family its thread drew, and no token is
let through before its entry is stored. -/
structure Ledger (σ : Shared (mikrouli P)) : Prop where
  drawn : ∀ i x, (σ.own i).any (draws x) = true → x ∈ σ.world.drawn
  single : ∀ i j x, (σ.own i).any (draws x) = true → (σ.own j).any (draws x) = true → i = j
  entries : ∀ f e, σ.world.redis (buildRevocationKey f) = some e → Stored σ f
  stores : ∀ i t, (σ.own i).any (stores t) = true →
    ∃ jti f, refreshClaims t.payload = some (jti, f) ∧ (σ.own i).any (draws f) = true
  signed : ∀ i t, (σ.own i).any (signs t) = true → t.entry? ≠ none →
    t.secret = P.jwtRefreshSecret
  passed : ∀ i t, passed t (σ.own i) = true → Settled σ t
  accepted : ∀ i t, accepted t (σ.own i) = true → Mikrouli.passed t (σ.own i) = true

/-- What a thread has done before it issues a command. -/
def Proper (P : Platform) (i : Nat) (c : Cmd) (σ : Shared (mikrouli P)) : Prop :=
  match c with
  | .redisGet _ => ∀ t, presented (σ.own i) = some t → mayPass t (σ.own i) = true
  | .redisSet key _ _ =>
    (presented (σ.own i) = none ∧ ∀ f, key ≠ buildRevocationKey f) ∨
      ∃ f, key = buildRevocationKey f ∧ (σ.own i).any (draws f) = true ∧
        (σ.own i).any stored = false ∧
        ∀ t, presented (σ.own i) = some t → rotating t (σ.own i) = true
  | .sign secret payload _ =>
    (σ.own i).any stored = false ∧ (refreshClaims payload ≠ none → secret = P.jwtRefreshSecret)
  | _ => True

section Ledger

variable {σ : Shared (mikrouli P)} {i : Nat} {c : Cmd} {ch : Choice} {w : World}
  {res : Except AppError c.Res} {t : Jwt}

theorem draws_call {x : String} (draw : draws (P := P) x (.call c res) = true)
    (returned : exec P i c ch σ.world = some (res, w)) : x ∉ σ.world.drawn ∧ x ∈ w.drawn := by
  unfold draws at draw
  split at draw
  next y same =>
    cases same
    obtain ⟨same, -, unused, rfl⟩ := exec_randomUUID returned
    cases same
    rw [of_decide_eq_true draw] at unused
    exact ⟨unused, by simp [of_decide_eq_true draw]⟩
  · cases draw

theorem Stored.called {f : String} : Stored σ f → Stored (σ.called i c res w) f := by
  rintro ⟨s, drew, did⟩
  exact ⟨s, Shared.any_called.mpr (.inr drew), Shared.any_called.mpr (.inr did)⟩

theorem Settled.called : Settled σ t → Settled (σ.called i c res w) t := by
  rintro ⟨jti, f, claims, done⟩
  exact ⟨jti, f, claims, done.called⟩

theorem presented_called (j : Nat) :
    presented ((σ.called i c res w).own j) = presented (σ.own j) := by
  rw [Shared.called_own]
  split <;> rfl

theorem revoking_called (j : Nat) :
    revoking ((σ.called i c res w).own j) = revoking (σ.own j) := by
  rw [Shared.called_own]
  split <;> rfl

/-- The allowlist lets a token through only with its entry there. -/
theorem lists_of_passes (pass : passes (P := P) t (.call c res) = true)
    (returned : exec P i c ch σ.world = some (res, w)) :
    (∃ key, c = .redisGet key) ∧ σ.world.lists t = true := by
  unfold passes at pass
  split at pass
  next key jti same =>
    cases same
    obtain ⟨-, ⟨-, failed⟩ | ⟨-, same⟩⟩ := exec_redisGet returned
    · cases failed
    · simp only [Except.ok.injEq] at same
      exact ⟨⟨key, rfl⟩, lists_eq_true.mpr ⟨key, jti, of_decide_eq_true pass, same.symm⟩⟩
  · cases pass

theorem redisSet_of_stored (store : stored (P := P) (.call c res) = true) :
    ∃ key v ex, c = .redisSet key v ex := by
  unfold stored at store
  split at store
  next key v ex a same => cases same; exact ⟨key, v, ex, rfl⟩
  · cases store

theorem Ledger.passes_settled (ledger : Ledger σ) (listed : σ.world.lists t = true) :
    Settled σ t := by
  obtain ⟨key, jti, entry, found⟩ := lists_eq_true.mp listed
  obtain ⟨f, claims, rfl⟩ := entry?_eq_some.mp entry
  obtain ⟨e, there, -, -⟩ := Expiring.get_eq_some.mp found
  exact ⟨jti, f, claims, ledger.entries f e there⟩

/-- An entry under a revocation key was there before, or the command has just stored it. -/
theorem entry_called {f : String} {e : Stamped String} (proper : Proper P i c σ)
    (returned : exec P i c ch σ.world = some (res, w))
    (after : w.redis (buildRevocationKey f) = some e) :
    σ.world.redis (buildRevocationKey f) = some e ∨
      ((σ.own i).any (draws f) = true ∧ (σ.own i).any stored = false ∧
        stored (P := P) (.call c res) = true) := by
  cases c with
  | redisSet key v ex =>
    rcases exec_redisSet returned with ⟨-, -, rfl⟩ | ⟨-, rfl, rfl⟩
    · exact .inl after
    · rcases Expiring.of_set_eq_some after with same | before
      · rcases proper with ⟨-, foreign⟩ | ⟨f', key_eq, drew, first, -⟩
        -- a cache entry of a link is under no revocation key
        · exact absurd same.symm (foreign f)
        · rw [key_eq] at same
          rw [buildRevocationKey_inj same]
          exact .inr ⟨drew, first, rfl⟩
      · exact .inl before
  | redisDel key =>
    rcases exec_redisDel returned with ⟨-, -, rfl⟩ | ⟨-, -, rfl⟩
    · exact .inl after
    · exact .inl (Expiring.of_del_eq_some after)
  | redisGetDel key =>
    rcases exec_redisGetDel returned with ⟨-, -, rfl⟩ | ⟨-, -, rfl⟩
    · exact .inl after
    · exact .inl (Expiring.of_del_eq_some after)
  | _ =>
    rw [(exec_frame returned).redis rfl] at after
    exact .inl after

/-- A stored entry of a token is under a family the thread drew. -/
theorem drew_of_stores (proper : Proper P i c σ) (store : stores (P := P) t (.call c res) = true) :
    ∃ jti f, refreshClaims t.payload = some (jti, f) ∧ (σ.own i).any (draws f) = true ∧
      (σ.own i).any stored = false ∧
      ∀ t, presented (σ.own i) = some t → rotating t (σ.own i) = true := by
  unfold stores at store
  split at store
  next key jti ex a same =>
    cases same
    obtain ⟨f, claims, key_eq⟩ := entry?_eq_some.mp (of_decide_eq_true store)
    rcases proper with ⟨-, foreign⟩ | ⟨f', key_eq', drew, first, rotates⟩
    · exact absurd key_eq (foreign f)
    · rw [key_eq'] at key_eq
      cases buildRevocationKey_inj key_eq
      exact ⟨jti, f, claims, drew, first, rotates⟩
  · cases store

theorem Ledger.called (ledger : Ledger σ) (proper : Proper P i c σ)
    (returned : exec P i c ch σ.world = some (res, w)) : Ledger (σ.called i c res w) := by
  constructor
  case drawn =>
    intro j x after
    rcases Shared.any_called.mp after with ⟨-, draw⟩ | before
    · exact (draws_call draw returned).2
    · exact (exec_frame returned).drawn (ledger.drawn j x before)
  case single =>
    intro j k x first second
    rcases Shared.any_called.mp first with ⟨rfl, draw⟩ | before
    · rcases Shared.any_called.mp second with ⟨rfl, -⟩ | earlier
      · rfl
      -- drawn now, so nobody has drawn it before
      · exact absurd (ledger.drawn k x earlier) (draws_call draw returned).1
    · rcases Shared.any_called.mp second with ⟨rfl, draw⟩ | earlier
      · exact absurd (ledger.drawn j x before) (draws_call draw returned).1
      · exact ledger.single j k x before earlier
  case entries =>
    intro f e after
    rcases entry_called proper returned after with before | ⟨drew, -, store⟩
    · exact (ledger.entries f e before).called
    · exact ⟨i, Shared.any_called.mpr (.inr drew), Shared.any_called.mpr (.inl ⟨rfl, store⟩)⟩
  case stores =>
    intro j t after
    rcases Shared.any_called.mp after with ⟨rfl, store⟩ | before
    · obtain ⟨jti, f, claims, drew, -⟩ := drew_of_stores proper store
      exact ⟨jti, f, claims, Shared.any_called.mpr (.inr drew)⟩
    · obtain ⟨jti, f, claims, drew⟩ := ledger.stores j t before
      exact ⟨jti, f, claims, Shared.any_called.mpr (.inr drew)⟩
  case signed =>
    intro j t after entry
    rcases Shared.any_called.mp after with ⟨rfl, sign⟩ | before
    · unfold signs at sign
      split at sign
      next secret payload expiresIn t' same =>
        cases same
        have token := exec_sign returned
        simp only [Except.ok.injEq] at token
        rw [of_decide_eq_true sign] at token
        subst token
        -- only the refresh secret signs a payload with an id and a family
        refine proper.2 fun none => entry ?_
        rw [Jwt.entry?, none]
        rfl
      · cases sign
    · exact ledger.signed j t before entry
  case passed =>
    intro j t after
    obtain ⟨asked, after⟩ := passed_eq_true.mp after
    rw [presented_called] at asked
    rcases Shared.any_called.mp after with ⟨rfl, pass⟩ | before
    · exact (ledger.passes_settled (lists_of_passes pass returned).2).called
    · exact (ledger.passed j t (passed_eq_true.mpr ⟨asked, before⟩)).called
  case accepted =>
    intro j t after
    obtain ⟨asked, after⟩ := accepted_eq_true.mp after
    rw [presented_called] at asked
    have through : Mikrouli.passed t (σ.own j) = true := by
      rcases Shared.any_called.mp after with ⟨rfl, store⟩ | before
      · obtain ⟨key, v, ex, rfl⟩ := redisSet_of_stored store
        -- a thread that was presented a token stores an entry only after it was let through
        rcases proper with ⟨unasked, -⟩ | ⟨f, -, -, -, rotates⟩
        · rw [unasked] at asked
          cases asked
        · exact (rotating_eq_true.mp (rotates t asked)).1
      · exact ledger.accepted j t (accepted_eq_true.mpr ⟨asked, before⟩)
    obtain ⟨-, pass⟩ := passed_eq_true.mp through
    refine passed_eq_true.mpr ⟨?_, Shared.any_called.mpr (.inr pass)⟩
    rw [presented_called]
    exact asked

theorem Ledger.ticked (ledger : Ledger σ) (ms : Nat) : Ledger (σ.ticked ms) :=
  ⟨ledger.drawn, ledger.single, ledger.entries, ledger.stores, ledger.signed, ledger.passed,
    ledger.accepted⟩

theorem presented_started {n j : Nat} {r : Req} (other : j ≠ n) :
    presented ((σ.started n r).own j) = presented (σ.own j) := by
  rw [Shared.started_own_of_ne other]

/-- A request that has just arrived meets no test of a thread's deeds. -/
theorem any_started {n j : Nat} {r : Req} {p : Event (mikrouli P) → Bool} (fresh : σ.own n = [])
    (idle : p (.start r) = false) (after : ((σ.started n r).own j).any p = true) :
    j ≠ n ∧ (σ.own j).any p = true := by
  rw [Shared.any_started σ n j r idle] at after
  refine ⟨?_, after⟩
  rintro rfl
  rw [fresh] at after
  cases after

theorem Stored.started {n : Nat} {r : Req} {f : String} :
    Stored σ f → Stored (σ.started n r) f := by
  rintro ⟨s, drew, did⟩
  refine ⟨s, ?_, ?_⟩
  · rw [Shared.any_started σ n s r rfl]
    exact drew
  · rw [Shared.any_started σ n s r rfl]
    exact did

theorem Settled.started {n : Nat} {r : Req} : Settled σ t → Settled (σ.started n r) t := by
  rintro ⟨jti, f, claims, done⟩
  exact ⟨jti, f, claims, done.started⟩

theorem Ledger.started (ledger : Ledger σ) {n : Nat} (fresh : σ.own n = []) (r : Req) :
    Ledger (σ.started n r) := by
  constructor
  case drawn => exact fun j x after => ledger.drawn j x (any_started fresh rfl after).2
  case single =>
    exact fun j k x first second =>
      ledger.single j k x (any_started fresh rfl first).2 (any_started fresh rfl second).2
  case entries => exact fun f e there => (ledger.entries f e there).started
  case stores =>
    intro j t after
    obtain ⟨jti, f, claims, drew⟩ := ledger.stores j t (any_started fresh rfl after).2
    refine ⟨jti, f, claims, ?_⟩
    rw [Shared.any_started σ n j r rfl]
    exact drew
  case signed => exact fun j t after => ledger.signed j t (any_started fresh rfl after).2
  case passed =>
    intro j t after
    obtain ⟨asked, after⟩ := passed_eq_true.mp after
    obtain ⟨other, pass⟩ := any_started fresh rfl after
    rw [presented_started other] at asked
    exact (ledger.passed j t (passed_eq_true.mpr ⟨asked, pass⟩)).started
  case accepted =>
    intro j t after
    obtain ⟨asked, after⟩ := accepted_eq_true.mp after
    obtain ⟨other, store⟩ := any_started fresh rfl after
    rw [presented_started other] at asked
    have through := ledger.accepted j t (accepted_eq_true.mpr ⟨asked, store⟩)
    rw [Shared.started_own_of_ne other]
    exact through

/-- Where no entry has been stored yet, the ledger is empty. -/
theorem Ledger.initial {w₀ : World} (cold : ∀ f, w₀.redis (buildRevocationKey f) = none) :
    Ledger (P := P) ⟨w₀, []⟩ := by
  constructor
  case entries =>
    intro f e there
    rw [cold] at there
    cases there
  case single => exact fun i j x after _ => by cases after
  case passed => exact fun i t after => by cases after
  case accepted => exact fun i t after => by cases after
  all_goals intro i x after; cases after

end Ledger

/-! ### The contract -/

/-- Every thread keeps the ledger; what a call has done is seen in its own events. -/
def tokens (P : Platform) : Contract (mikrouli P) :=
  .ofOwn Ledger (Proper P) fun i r res σ => ∀ a, res = .ok a →
    (∀ t, r = .rotateRefresh (.jwt t) → presented (σ.own i) = some t ∧
      ∃ tokens, a = .issued tokens ∧ issued tokens.tokens.refreshToken (σ.own i) = true) ∧
    ∀ t, r = .revokeRefresh (.jwt t) → t.entry? ≠ none →
      (σ.own i).any checks = true ∧ revoked t (σ.own i) = true

section Programs

variable {G : Guard (mikrouli P)} {σ : Shared (mikrouli P)} {i : Nat} {t : Jwt}

/-- One command, issued properly: what follows may use the thread's own events. -/
theorem tokens_await {c : Cmd} {Q : Except AppError c.Res → Shared (mikrouli P) → Prop}
    (proper : ∀ σ', σ'.own i = σ.own i → Proper P i c σ')
    (next : ∀ (σ' : Shared (mikrouli P)) ch res w, σ'.own i = σ.own i → exec P i c ch σ'.world = some (res, w) →
      Q res (σ'.called i c res w)) : Safe (tokens P) G i Q (await c) σ := by
  apply Safe.perform
  intro σ' rely ledger
  refine ⟨proper σ' rely, fun ch res w returned _ => ⟨?_, ?_, ?_⟩⟩
  · exact ledger.called (proper σ' rely) returned
  · exact fun j other => Shared.called_own_of_ne other σ' c res w
  · exact next σ' ch res w rely returned

/-- A command that neither signs nor asks for a revocation key. -/
def Plain : Cmd → Prop
  | .redisGet key => ∀ f, key ≠ buildRevocationKey f
  | .redisSet key _ _ => ∀ f, key ≠ buildRevocationKey f
  | .sign _ _ _ => False
  | _ => True

/-- Threads that present no token may issue plain commands. -/
theorem tokens_plain {α : Type} {p : Prog α} {Q : Except AppError α → Shared (mikrouli P) → Prop}
    (only : p.Only Plain) (unasked : presented (σ.own i) = none)
    (post : ∀ r σ, presented (σ.own i) = none → Q r σ) : Safe (tokens P) G i Q p σ := by
  refine Safe.of_only (K := fun σ => presented (σ.own i) = none) only ?_ ?_ post unasked
  · intro σ σ' rely unasked
    have same : σ'.own i = σ.own i := rely
    rw [same]
    exact unasked
  · intro c σ plain ledger unasked
    have proper : Proper P i c σ := by
      cases c with
      -- only a thread that presents a token reads the allowlist
      | redisGet key => exact fun t asked => by rw [unasked] at asked; cases asked
      | redisSet key v ex => exact .inl ⟨unasked, plain⟩
      | sign s p e => exact absurd plain id
      | _ => trivial
    refine ⟨proper, fun ch res w returned _ => ⟨ledger.called proper returned, ?_, ?_⟩⟩
    · exact fun j other => Shared.called_own_of_ne other σ c res w
    · rw [presented_called]
      exact unasked

/-- The thread may issue tokens: it has stored nothing yet, and a token it was presented has
been let through. -/
structure MayIssue (es : Events P) : Prop where
  first : es.any stored = false
  rotates : ∀ t, presented es = some t → rotating t es = true

theorem MayIssue.cons {es : Events P} {c : Cmd} {res : Except AppError c.Res}
    (may : MayIssue es) (goes : settles (P := P) (.call c res) = false) :
    MayIssue (.call c res :: es) := by
  have silent : stored (P := P) (.call c res) = false := by
    by_contra store
    rw [Bool.not_eq_false] at store
    rw [settles_of_stored store] at goes
    cases goes
  constructor
  · rw [List.any_cons, silent, may.first]
    rfl
  · intro t asked
    obtain ⟨through, open_⟩ := rotating_eq_true.mp (may.rotates t asked)
    obtain ⟨asked, pass⟩ := passed_eq_true.mp through
    refine rotating_eq_true.mpr ⟨passed_eq_true.mpr ⟨asked, ?_⟩, ?_⟩
    · rw [List.any_cons, pass, Bool.or_true]
    · rw [List.any_cons, goes, open_]
      rfl

/-- A command on the way to the store. -/
theorem issuing_await {c : Cmd} {Q : Except AppError c.Res → Shared (mikrouli P) → Prop}
    (may : MayIssue (σ.own i)) (goes : ∀ res, settles (P := P) (.call c res) = false)
    (proper : ∀ σ' : Shared (mikrouli P), MayIssue (σ'.own i) → Proper P i c σ')
    (next : ∀ σ' ch res w w', exec P i c ch w = some (res, w') →
      σ'.own i = .call c res :: σ.own i → MayIssue (σ'.own i) → Q res σ') :
    Safe (tokens P) G i Q (await c) σ := by
  apply tokens_await
  · intro σ' own
    apply proper
    rw [own]
    exact may
  · intro σ' ch res w own returned
    have events : (σ'.called i c res w).own i = .call c res :: σ.own i := by
      rw [Shared.called_own_self, own]
    apply next _ ch res _ w returned events
    rw [events]
    exact may.cons (goes res)

/-- The pair that is answered was signed by the thread and its entry stored. -/
theorem issueTokens_safe {user : User} (may : MayIssue (σ.own i)) :
    Safe (tokens P) G i (fun r σ' => ∀ iss, r = .ok iss →
      presented (σ'.own i) = presented (σ.own i) ∧
      issued iss.tokens.refreshToken (σ'.own i) = true) (AuthService.issueTokens P user) σ := by
  apply Safe.bind
  apply issuing_await may
  · exact fun _ => rfl
  · exact fun _ _ => trivial
  intro σ₁ ch₁ res₁ _ _ returned₁ own₁ may₁
  obtain ⟨rfl, named₁, -⟩ := exec_randomUUID returned₁
  apply Safe.bind
  apply issuing_await may₁
  · exact fun _ => rfl
  · exact fun _ _ => trivial
  intro σ₂ ch₂ res₂ _ _ returned₂ own₂ may₂
  obtain ⟨rfl, named₂, -⟩ := exec_randomUUID returned₂
  apply Safe.bind
  apply issuing_await may₂
  · exact fun _ => rfl
  -- an access token has no id and no family, so any secret is proper
  · exact fun _ may => ⟨may.first, fun claims => absurd rfl claims⟩
  intro σ₃ ch₃ res₃ _ _ returned₃ own₃ may₃
  rw [exec_sign returned₃] at own₃ ⊢
  apply Safe.bind
  apply issuing_await may₃
  · exact fun _ => rfl
  · exact fun _ may => ⟨may.first, fun _ => rfl⟩
  intro σ₄ ch₄ res₄ _ _ returned₄ own₄ may₄
  rw [exec_sign returned₄] at own₄ ⊢
  -- the family was the second draw, and its entry is the last command
  have drew : (σ₄.own i).any (draws ch₂.draw) = true := by
    rw [own₄, own₃, own₂]
    simp [draws]
  apply Safe.bind
  change Safe _ _ _ _ (await (.redisSet (buildRevocationKey ch₂.draw) ch₁.draw
    (some REFRESH_TOKEN_TTL_SECONDS))) _
  apply tokens_await
  · intro σ' own
    refine .inr ⟨ch₂.draw, rfl, ?_, ?_, ?_⟩
    · rw [own]
      exact drew
    · rw [own]
      exact may₄.first
    · rw [own]
      exact may₄.rotates
  · intro σ₅ ch₅ res₅ w₅ own₅ returned₅
    cases res₅ with
    | error e => exact fun iss answered => by cases answered
    | ok a =>
      rintro iss ⟨⟩
      rw [Shared.called_own_self, own₅]
      refine ⟨?_, issued_eq_true.mpr ⟨?_, ?_⟩⟩
      · rw [own₄, own₃, own₂, own₁]
        rfl
      · rw [own₄]
        simp [signs]
      · have claims : refreshClaims (buildRefreshPayload user ch₁.draw ch₂.draw) =
            some (ch₁.draw, ch₂.draw) := by
          simp [refreshClaims, buildRefreshPayload, named₁, named₂]
        rw [List.any_cons, Bool.or_eq_true]
        exact .inl (decide_eq_true (entry?_eq_some.mpr ⟨ch₂.draw, claims, rfl⟩))

theorem mayIssue_of_passes {t : Jwt} {key jti id : String} {payload : JwtPayload} {user : User}
    (entry : t.entry? = some (key, jti)) :
    MayIssue (P := P) [.call (.findUserById id) (.ok (some user)),
      .call (.redisGet key) (.ok (some jti)),
      .call (.verify P.jwtRefreshSecret (.jwt t)) (.ok payload),
      .start (.rotateRefresh (.jwt t))] := by
  constructor
  · rfl
  · rintro t' ⟨⟩
    refine rotating_eq_true.mpr ⟨passed_eq_true.mpr ⟨rfl, ?_⟩, rfl⟩
    simp [passes, entry]

/-- The token of a rotation that passes its checks is the one it was presented. -/
theorem rotateRefresh_safe {token : Token}
    (fresh : σ.own i = [.start (.rotateRefresh token)]) :
    Safe (tokens P) G i (fun r σ' => ∀ iss, r = .ok iss →
      presented (σ'.own i) = presented (σ.own i) ∧
      issued iss.tokens.refreshToken (σ'.own i) = true) (AuthService.rotateRefresh P token) σ := by
  have failed : ∀ {e : AppError} {σ' : Shared (mikrouli P)} (iss : IssuedTokens),
      (Except.error e : Except AppError IssuedTokens) = .ok iss →
      presented (σ'.own i) = presented (σ.own i) ∧
      issued iss.tokens.refreshToken (σ'.own i) = true := fun iss answered => by cases answered
  apply Safe.bind
  apply Safe.tryCatch
  apply tokens_await
  · exact fun _ _ => trivial
  intro σ₁ ch₁ res₁ w₁ own₁ returned₁
  cases res₁ with
  | error e => exact failed
  | ok payload =>
    cases token with
    | other s =>
      have invalid := exec_verify_other returned₁
      cases invalid
    | jwt t =>
      have events₁ : (σ₁.called i (.verify P.jwtRefreshSecret (.jwt t)) (.ok payload) w₁).own i =
          [.call (.verify P.jwtRefreshSecret (.jwt t)) (.ok payload),
            .start (.rotateRefresh (.jwt t))] := by
        rw [Shared.called_own_self, own₁, fresh]
      obtain ⟨-, ⟨same, -, -⟩ | ⟨failed, -⟩⟩ := exec_verify_jwt returned₁
      · cases same
        apply Safe.bind
        unfold assertRefreshType
        split
        next => exact failed
        next =>
          apply Safe.bind
          unfold assertRefreshClaims
          split
          next claims entry =>
            obtain ⟨jti, family⟩ := claims
            apply Safe.bind
            apply tokens_await
            · intro σ₂ own₂ t' asked
              rw [own₂, events₁] at asked ⊢
              cases asked
              exact mayPass_eq_true.mpr ⟨rfl, by simp [verifies], rfl⟩
            intro σ₂ ch₂ res₂ w₂ own₂ returned₂
            cases res₂ with
            | error e => exact failed
            | ok found =>
              cases found with
              | none => exact failed
              | some storedJti =>
                simp only
                split
                next =>
                  apply Safe.bind
                  apply tokens_await
                  · exact fun _ _ => trivial
                  -- another id is listed: the family goes, and no token is issued
                  · intro σ₃ ch₃ res₃ w₃ _ _
                    cases res₃ <;> exact failed
                next same =>
                  have same : storedJti = jti := not_not.mp same
                  subst same
                  apply Safe.bind
                  apply tokens_await
                  · exact fun _ _ => trivial
                  intro σ₃ ch₃ res₃ w₃ own₃ _
                  cases res₃ with
                  | error e => exact failed
                  | ok user =>
                    cases user with
                    | none => exact failed
                    | some user =>
                      -- the four events so far are those of `mayIssue_of_passes`
                      refine (issueTokens_safe ?_).mono fun r σ' issues iss answered => ?_
                      · rw [Shared.called_own_self, own₃, Shared.called_own_self, own₂, events₁]
                        exact mayIssue_of_passes (entry?_eq_some.mpr ⟨family, entry, rfl⟩)
                      · obtain ⟨asked, issue⟩ := issues iss answered
                        refine ⟨asked.trans ?_, issue⟩
                        rw [presented_called, own₃, presented_called, own₂, events₁, fresh]
                        rfl
          next => exact failed
      · cases failed

/-- A command that neither signs nor reads or stores an entry. -/
def Quiet : Cmd → Prop
  | .redisGet _ => False
  | .redisSet _ _ _ => False
  | .sign _ _ _ => False
  | _ => True

/-- Sign-in before it issues tokens. -/
theorem tokens_quiet {α : Type} {p : Prog α} {Q : Except AppError α → Shared (mikrouli P) → Prop}
    (only : p.Only Quiet) (unasked : presented (σ.own i) = none)
    (first : (σ.own i).any stored = false)
    (post : ∀ r σ, MayIssue (σ.own i) → Q r σ) : Safe (tokens P) G i Q p σ := by
  refine Safe.of_only
    (K := fun σ => presented (σ.own i) = none ∧ (σ.own i).any stored = false) only ?_ ?_ ?_
    ⟨unasked, first⟩
  · intro σ σ' rely ready
    have same : σ'.own i = σ.own i := rely
    rw [same]
    exact ready
  · rintro c σ quiet ledger ⟨unasked, first⟩
    have proper : Proper P i c σ := by
      cases c <;> first | exact quiet.elim | trivial
    refine ⟨proper, fun ch res w returned _ => ⟨ledger.called proper returned, ?_, ?_, ?_⟩⟩
    · exact fun j other => Shared.called_own_of_ne other σ c res w
    · rw [presented_called]
      exact unasked
    · rw [Shared.called_own_self, List.any_cons, first, Bool.or_false]
      by_contra store
      rw [Bool.not_eq_false] at store
      obtain ⟨key, v, ex, rfl⟩ := redisSet_of_stored store
      exact quiet
  · rintro r σ ⟨unasked, first⟩
    exact post r σ ⟨first, fun t asked => by rw [unasked] at asked; cases asked⟩

theorem login_safe {email password : String} (unasked : presented (σ.own i) = none)
    (first : (σ.own i).any stored = false) :
    Safe (tokens P) G i (fun _ _ => True) (AuthController.login P email password) σ := by
  apply Safe.bind
  refine tokens_quiet (only_validateCredentials trivial) unasked first fun r σ' may => ?_
  cases r with
  | error e => trivial
  | ok user =>
    cases user with
    | none => trivial
    | some user => exact (issueTokens_safe may).mono fun _ _ _ => trivial

theorem loginWithGithub_safe {identity : GithubIdentity} (unasked : presented (σ.own i) = none)
    (first : (σ.own i).any stored = false) :
    Safe (tokens P) G i (fun _ _ => True) (AuthService.loginWithGithub P identity) σ := by
  have only : Prog.Only Quiet (UsersService.findOrCreateFromProvider identity) :=
    only_findOrCreateFromProvider trivial (fun _ => trivial) trivial (fun _ => trivial) trivial
      trivial trivial
  apply Safe.bind
  refine tokens_quiet only unasked first fun r σ' may => ?_
  cases r with
  | error e => trivial
  | ok user => exact (issueTokens_safe may).mono fun _ _ _ => trivial

theorem revokeRefresh_safe {token : Token}
    (fresh : σ.own i = [.start (.revokeRefresh token)]) :
    Safe (tokens P) G i (fun r σ' => ∀ t, token = .jwt t → t.entry? ≠ none → r = .ok () →
      (σ'.own i).any checks = true ∧ revoked t (σ'.own i) = true)
      (AuthService.revokeRefresh P token) σ := by
  apply Safe.bind
  apply Safe.tryCatch
  apply Safe.bind
  apply tokens_await
  · exact fun _ _ => trivial
  intro σ₁ ch₁ res₁ w₁ own₁ returned₁
  have events₁ : (σ₁.called i (.verify P.jwtRefreshSecret token) res₁ w₁).own i =
      [.call (.verify P.jwtRefreshSecret token) res₁, .start (.revokeRefresh token)] := by
    rw [Shared.called_own_self, own₁, fresh]
  cases res₁ with
  | error e =>
    -- a token that does not verify counts as revoked: nothing will let it through
    rintro t rfl _ _
    rw [events₁]
    exact ⟨rfl, revoked_eq_true.mpr ⟨rfl, by simp [revokes]⟩⟩
  | ok payload =>
    cases token with
    | other s =>
      have invalid := exec_verify_other returned₁
      cases invalid
    | jwt t =>
      obtain ⟨-, ⟨same, -, -⟩ | ⟨failed, -⟩⟩ := exec_verify_jwt returned₁
      · cases same
        change Safe _ _ _ _ (AuthService.revokeFamily t.payload) _
        -- a token with an entry has a family, so its key is the one deleted
        have key : ∀ {t' : Jwt}, Token.jwt t = Token.jwt t' → t'.entry? ≠ none →
            ∃ jti family, t.payload.family = some family ∧ family ≠ "" ∧
              t'.entry? = some (buildRevocationKey family, jti) := by
          rintro _ ⟨⟩ entry
          obtain ⟨⟨key, jti⟩, entry⟩ := Option.ne_none_iff_exists'.mp entry
          obtain ⟨family, claims, rfl⟩ := entry?_eq_some.mp entry
          obtain ⟨-, has, -, named⟩ := refreshClaims_eq_some.mp claims
          exact ⟨jti, family, has, named, entry⟩
        unfold AuthService.revokeFamily
        split
        next none =>
          intro t' asked entry
          obtain ⟨jti, family, some, -, -⟩ := key asked entry
          rw [none] at some
          cases some
        next family has =>
          split
          next empty =>
            intro t' asked entry
            obtain ⟨jti, family', has', named, -⟩ := key asked entry
            rw [has] at has'
            cases has'
            exact absurd empty named
          next named =>
            apply tokens_await
            · exact fun _ _ => trivial
            intro σ₂ ch₂ res₂ w₂ own₂ returned₂ t' asked entry done
            obtain ⟨jti, family', has', -, entry⟩ := key asked entry
            rw [has] at has'
            cases has'
            cases asked
            subst done
            refine ⟨?_, revoked_eq_true.mpr ⟨?_, ?_⟩⟩
            · rw [Shared.called_own_self, own₂, events₁]
              rfl
            · rw [revoking_called, own₂, events₁]
              rfl
            · rw [Shared.called_own_self, List.any_cons, Bool.or_eq_true]
              exact .inl (decide_eq_true (by rw [entry]; rfl))
      · cases failed

/-- Requests that have nothing to do with tokens keep to plain commands. -/
theorem plain_of_mayIssue {r : Req} (other : r.onTokens = false) {c : Cmd}
    (issued : r.MayIssue c) : Plain c := by
  cases c with
  | redisGet key | redisSet key v ex =>
    rcases issued with ⟨-, slug, rfl⟩ | ⟨onTokens, -⟩
    · exact fun f => cacheKey_ne_buildRevocationKey slug f
    · rw [other] at onTokens
      cases onTokens
  | sign s p e =>
    have onTokens : r.onTokens = true := issued
    rw [other] at onTokens
    cases onTokens
  | _ => trivial

theorem serve_tokenSafe {r : Req} (fresh : σ.own i = [.start r]) :
    Safe (tokens P) G i ((tokens P).Post i r) (serve P r) σ := by
  have first : (σ.own i).any stored = false := by
    rw [fresh]
    rfl
  have trivially : ∀ {res : Except AppError Ans} {σ' : Shared (mikrouli P)},
      (∀ t, r ≠ .rotateRefresh (.jwt t)) → (∀ t, r ≠ .revokeRefresh (.jwt t)) →
      (tokens P).Post i r res σ' :=
    fun rotates revokes a _ => ⟨fun t same => absurd same (rotates t),
      fun t same => absurd same (revokes t)⟩
  cases r with
  | login email password =>
    have unasked : presented (σ.own i) = none := by
      rw [fresh]
      rfl
    exact .map ((login_safe unasked first).mono fun _ _ _ => trivially (by simp) (by simp))
  | loginWithGithub identity =>
    have unasked : presented (σ.own i) = none := by
      rw [fresh]
      rfl
    exact .map ((loginWithGithub_safe unasked first).mono fun _ _ _ =>
      trivially (by simp) (by simp))
  | rotateRefresh token =>
    apply Safe.map
    refine (rotateRefresh_safe fresh).mono fun res σ' post a answered => ?_
    cases res with
    | error e => cases answered
    | ok iss =>
      obtain ⟨asked, issue⟩ := post iss rfl
      refine ⟨?_, fun t same => by cases same⟩
      rintro t ⟨⟩
      refine ⟨?_, iss, (Except.ok.inj answered).symm, issue⟩
      rw [asked, fresh]
      rfl
  | revokeRefresh token =>
    apply Safe.map
    refine (revokeRefresh_safe fresh).mono fun res σ' post a answered => ?_
    cases res with
    | error e => cases answered
    | ok done =>
      refine ⟨fun t same => (by cases same), ?_⟩
      rintro t ⟨⟩ entry
      exact post t rfl entry rfl
  | _ =>
    refine tokens_plain ((serve_only P _).mono fun c issued => plain_of_mayIssue rfl issued) ?_ ?_
    · rw [fresh]
      rfl
    · exact fun _ _ _ => trivially (by simp) (by simp)

theorem tokens_sound : (tokens P).Sound G := by
  constructor
  · exact fun σ ms ledger _ => ⟨ledger.ticked ms, fun _ => rfl⟩
  · intro σ n r ledger fresh _
    refine ⟨ledger.started fresh r, fun j other => Shared.started_own_of_ne other σ r, ?_⟩
    apply serve_tokenSafe
    rw [Shared.started_own_self, fresh]

theorem tokens_initial {w₀ : World} (cold : ∀ f, w₀.redis (buildRevocationKey f) = none) :
    (tokens P).Holds G (initial w₀) :=
  ⟨Ledger.initial cold, by simp [initial], by simp [initial]⟩

end Programs

end Mikrouli
