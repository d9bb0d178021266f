import Mikrouli.Model.Guards

/-! That the guards agree on who is a guest, and that no guest goes uncounted. -/

namespace Mikrouli

open Async

/-! ### Credentials -/

section Credentials

variable {req : HttpRequest}

/-- However often it is sent, Node gives one value for the Authorization header. -/
theorem header_authorization (req : HttpRequest) :
    req.header "authorization" = none ∨ ∃ s, req.header "authorization" = some (.one s) := by
  unfold HttpRequest.header
  split
  · exact .inl rfl
  next line rest _ => exact .inr ⟨line, rfl⟩

/-- The two readings of the headers and cookies agree, and neither throws. -/
theorem chooseAuthMethod_eq (req : HttpRequest) :
    ∃ method, chooseAuthMethod req = .ok method ∧
      (carriesApiCredential req = true ↔ method ≠ none) := by
  -- what both decide on, once the Authorization header has been read
  have agree : ∀ bearer key cookie : Bool, ∃ method,
      (do
        let bearer ← (Except.ok bearer : Except Exception Bool)
        if bearer then pure (some AuthMethod.jwt)
        else if key then pure (some .apiKey)
        else if cookie then pure (some .jwt)
        else pure none) = Except.ok method ∧
      ((if bearer then true else if key then true else cookie) = true ↔ method ≠ none) := by
    intro bearer key cookie
    cases bearer with
    | true => exact ⟨some .jwt, rfl, by simp⟩
    | false =>
      cases key with
      | true => exact ⟨some .apiKey, rfl, by simp⟩
      | false =>
        cases cookie with
        | true => exact ⟨some .jwt, rfl, by simp⟩
        | false => exact ⟨none, rfl, by simp⟩
  simp only [chooseAuthMethod, carriesApiCredential, hasCookieToken]
  rcases header_authorization req with absent | ⟨s, given⟩
  · rw [absent]
    exact agree false _ _
  · rw [given]
    exact agree (startsWith "Bearer " s) _ _

end Credentials

/-! ### Guests -/

section Guests

variable {env : GuardEnv} {req : HttpRequest} {user : LinksController.RequestUser}

theorem bearerOrApiKey_isGuest (admitted : BearerOrApiKeyGuard.canActivate env req = .ok user) :
    user.isGuest = false := by
  obtain ⟨method, chosen, -⟩ := chooseAuthMethod_eq req
  rw [BearerOrApiKeyGuard.canActivate, chosen] at admitted
  cases method with
  | none => cases admitted
  | some method =>
    change (env.authenticate method req >>= fun id => pure ⟨id, false⟩) = .ok user at admitted
    cases found : env.authenticate method req with
    | error e =>
      rw [found] at admitted
      cases admitted
    | ok id =>
      rw [found] at admitted
      cases admitted
      rfl

/-- Nobody who carries a credential is taken for a guest. -/
theorem isGuest_of_carriesApiCredential (carries : carriesApiCredential req = true)
    (admitted : GuestOrAuthenticatedGuard.canActivate env req = .ok user) :
    user.isGuest = false := by
  simp only [GuestOrAuthenticatedGuard.canActivate, carries, ↓reduceIte] at admitted
  exact bearerOrApiKey_isGuest admitted

theorem carries_of_sheds {props : ThrottlerRequest}
    (sheds : CredentialedRequestThrottlerGuard.shedsForCredentialedRequest props = true) :
    carriesApiCredential props.request = true := by
  simp only [CredentialedRequestThrottlerGuard.shedsForCredentialedRequest] at sheds
  split at sheds
  · cases sheds
  · exact sheds

end Guests

/-! ### Counting -/

section Counting

open CredentialedRequestThrottlerGuard

variable (G : ThrottlerGuard) {props : ThrottlerRequest} {s s' : G.State}

/-- Between two states of the throttler a hit has been counted. -/
def CountsHit (props : ThrottlerRequest) (s s' : G.State) : Prop :=
  ∃ counted, G.hits s' = counted ++ G.hits s ∧ props ∈ counted

theorem hits_handleRequest (props : ThrottlerRequest) (s : G.State) :
    G.hits s <:+ G.hits (handleRequest G props s).2 := by
  unfold handleRequest
  split
  · exact List.suffix_rfl
  · rw [G.counts]
    exact List.suffix_cons _ _

theorem countsHit_handleRequest (kept : shedsForCredentialedRequest props = false) (s : G.State) :
    CountsHit G props s (handleRequest G props s).2 := by
  refine ⟨[props], ?_, List.mem_singleton_self _⟩
  simp only [handleRequest, kept, Bool.false_eq_true, ↓reduceIte]
  exact G.counts props s

variable {G} in
theorem CountsHit.mono {s₁ s₂ : G.State} (counts : CountsHit G props s₁ s₂)
    (before : G.hits s <:+ G.hits s₁) (after : G.hits s₂ <:+ G.hits s') :
    CountsHit G props s s' := by
  obtain ⟨counted, hits, member⟩ := counts
  obtain ⟨older, first⟩ := before
  obtain ⟨newer, last⟩ := after
  refine ⟨newer ++ counted ++ older, ?_, by simp [member]⟩
  rw [← last, hits, ← first]
  simp

theorem hits_eval (p : Async.Prog throttling Bool) (s : G.State) :
    G.hits s <:+ G.hits (p.eval (handleRequest G) s).2 := by
  induction p generalizing s with
  | done passed => exact List.suffix_rfl
  | fail e => exact List.suffix_rfl
  | await asked k ih => exact (hits_handleRequest G asked s).trans (ih _ _)

/-- A guard that lets a request pass has counted it against every budget that it is not let off. -/
theorem countsHit_eval (kept : shedsForCredentialedRequest props = false)
    {p : Async.Prog throttling Bool} (evaluates : Evaluates props p)
    (passed : (p.eval (handleRequest G) s).1 = .ok true) :
    CountsHit G props s (p.eval (handleRequest G) s).2 := by
  induction p generalizing s with
  | done passes =>
    have fails : passes = false := evaluates
    subst fails
    cases passed
  | fail e => cases passed
  | await asked k ih =>
    -- the hit is counted by this question, or by a later one whatever it answers
    rcases evaluates with rfl | later
    · exact (countsHit_handleRequest G kept s).mono List.suffix_rfl (hits_eval G _ _)
    · have counts := ih _ (later _) passed
      exact counts.mono (hits_handleRequest G asked s) List.suffix_rfl

end Counting

/-! ### Admission -/

/-- The hit on the guest budget. -/
def guestHit (req : HttpRequest) : ThrottlerRequest :=
  ⟨LinksController.createRoute, req, ⟨DEFAULT_THROTTLE_NAME, DEFAULT_MODULE_BUDGET⟩,
    GUEST_CREATE_BUDGET⟩

section Admission

variable {G : ThrottlerGuard} {env : GuardEnv} {req : HttpRequest}
  {user : LinksController.RequestUser} {s s' : G.State}

/-- Only a credential lets a creation off the guest budget. -/
theorem guestHit_kept (req : HttpRequest) :
    CredentialedRequestThrottlerGuard.shedsForCredentialedRequest (guestHit req) =
      carriesApiCredential req := by
  have shed : DEFAULT_THROTTLE_NAME ∈ (LinksController.createRoute.handlerSheds.or
      LinksController.createRoute.classSheds).getD [] := by decide
  simp only [CredentialedRequestThrottlerGuard.shedsForCredentialedRequest, guestHit, shed,
    not_true_eq_false, ↓reduceIte]

theorem counted_of_guest (admitted : LinksController.admitCreate G env req s = (.ok user, s'))
    (guest : user.isGuest = true) : CountsHit G (guestHit req) s s' := by
  unfold LinksController.admitCreate at admitted
  split at admitted
  · cases admitted
  · cases admitted
  next s₁ passed =>
    simp only [Prod.mk.injEq] at admitted
    obtain ⟨admitted, rfl⟩ := admitted
    -- a guest carries no credential, so the budget is not shed
    have kept : carriesApiCredential req = false := by
      by_contra carries
      rw [Bool.not_eq_false] at carries
      rw [isGuest_of_carriesApiCredential carries admitted] at guest
      cases guest
    have evaluates : Evaluates (guestHit req)
        (G.canActivate buildThrottlerOptions LinksController.createRoute req) :=
      G.evaluates _ _ _ ⟨DEFAULT_THROTTLE_NAME, DEFAULT_MODULE_BUDGET⟩ (by decide) (by decide)
    have counts := countsHit_eval G ((guestHit_kept req).trans kept) evaluates
      (congrArg Prod.fst passed)
    rw [CredentialedRequestThrottlerGuard.canActivate] at passed
    rw [passed] at counts
    exact counts

end Admission

/-- Whatever headers and cookies a request has: a credential is detected just when an
authentication method is chosen; a request that is let off some budget for its credential is not
taken for a guest; and who is admitted to create links as a guest has been counted against the
guest budget. -/
theorem guests_counted (G : ThrottlerGuard) (env : GuardEnv) :
    (∀ req, ∃ method, chooseAuthMethod req = .ok method ∧
      (carriesApiCredential req = true ↔ method ≠ none)) ∧
    (∀ props user, CredentialedRequestThrottlerGuard.shedsForCredentialedRequest props = true →
      GuestOrAuthenticatedGuard.canActivate env props.request = .ok user →
      user.isGuest = false) ∧
    ∀ req s user s', LinksController.admitCreate G env req s = (.ok user, s') →
      user.isGuest = true → CountsHit G (guestHit req) s s' := by
  refine ⟨chooseAuthMethod_eq, fun props user sheds admitted => ?_, fun req s user s' => ?_⟩
  · exact isGuest_of_carriesApiCredential (carries_of_sheds sheds) admitted
  · exact counted_of_guest

/-! ### A throttler in memory -/

/-- Asks about the throttlers in turn, and lets the request pass if all of them do. -/
def askThrottlers (route : GuardedRoute) (req : HttpRequest) (passing : Bool) :
    List Throttler → Async.Prog throttling Bool
  | [] => .done passing
  | t :: ts =>
    if t.name ∈ route.skipThrottle then askThrottlers route req passing ts
    else .await (throttlerRequest route req t) fun
      | .ok passed => askThrottlers route req (passing && passed) ts
      | .error e => .fail e

theorem askThrottlers_evaluates {route : GuardedRoute} {req : HttpRequest} {passing : Bool} {t : Throttler}
    {ts : List Throttler} (member : t ∈ ts) (asked : t.name ∉ route.skipThrottle) :
    Evaluates (throttlerRequest route req t) (askThrottlers route req passing ts) := by
  induction ts generalizing passing with
  | nil => cases member
  | cons t' ts ih =>
    unfold askThrottlers
    rcases List.mem_cons.mp member with rfl | later
    · rw [if_neg asked]
      exact .inl rfl
    · split
      · exact ih later
      · refine .inr fun res => ?_
        cases res with
        | ok passed => exact ih later
        | error e => trivial

/-- Hits of one window; a request over the limit of a budget is turned away. -/
def ThrottlerGuard.inMemory : ThrottlerGuard where
  State := List ThrottlerRequest
  hits := id
  handleRequest props s :=
    let used := (props :: s).filter fun hit =>
      decide (hit.throttler.name = props.throttler.name) && decide (hit.route = props.route)
    (if used.length ≤ props.budget.limit then .ok true
      else .error (.http (.new (.text "ThrottlerException: Too Many Requests") 429)), props :: s)
  canActivate throttlers route req := askThrottlers route req true throttlers
  counts _ _ := rfl
  evaluates _ _ _ _ member asked := askThrottlers_evaluates member asked

/-- The landing page's own request, without a credential. -/
def visitor : HttpRequest :=
  ⟨[("Host", "mikrou.li"), ("Origin", "https://mikrou.li"), ("Authorization", "bearer x")], none⟩

def visited : GuardEnv where
  urlHostname url := if url = "https://mikrou.li" then some "mikrou.li" else none
  guestShortenEnabled := none
  publicBaseUrl := none
  authenticate _ _ := .error UnauthorizedException
  getGuestUserId := .ok "guest"

theorem guests_counted_visitor :
    ∃ s', LinksController.admitCreate .inMemory visited visitor [] = (.ok ⟨"guest", true⟩, s') ∧
      CountsHit .inMemory (guestHit visitor) [] s' := by
  have admitted : (LinksController.admitCreate .inMemory visited visitor []).1 =
      .ok ⟨"guest", true⟩ := by decide +kernel
  refine ⟨(LinksController.admitCreate .inMemory visited visitor []).2, ?_, ?_⟩
  · rw [← admitted]
  · exact (guests_counted .inMemory visited).2.2 visitor [] ⟨"guest", true⟩ _
      (Prod.ext admitted rfl) rfl

end Mikrouli
