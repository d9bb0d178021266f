import Mikrouli.Lib.History
import Mikrouli.Model.Throttling
import Mikrouli.Properties.Admission

/-! How many requests of one client a pod lets through, whatever the client writes into its headers
and however the requests overlap. -/

namespace Mikrouli

open Async

variable {M : ThrottlerModule} {E : ForwardedAddresses} {edge : ProxyEdge}

/-! ### Whose request it is -/

/-- The edges of the two stacks. -/
inductive Shipped : ProxyEdge → Prop
  | compose (nginx : Address) : Shipped (composeEdge nginx)
  | kubernetes (T : Traefik) (traefik web : Address) : Shipped (kubernetesEdge T traefik web)

section Addresses

variable {req : HttpRequest} {client : Address}

theorem toLower_forwardedFor : "X-Forwarded-For".toLower = X_FORWARDED_FOR := by decide +kernel

theorem lines_nginxForward :
    (nginxForward client req).lines X_FORWARDED_FOR = [proxyAddXForwardedFor client req] := by
  simp [HttpRequest.lines, nginxForward, toLower_forwardedFor, List.filter_filter]

theorem lines_nginxForward_of_ne {name : String} (other : name ≠ X_FORWARDED_FOR) :
    (nginxForward client req).lines name = req.lines name := by
  simp only [HttpRequest.lines, nginxForward, List.filter_append, List.filter_filter,
    List.filter_cons, toLower_forwardedFor, Ne.symm other, decide_false, List.filter_nil,
    Bool.false_eq_true, if_false, List.append_nil]
  congr 1
  apply List.filter_congr
  intro line _
  by_cases named : line.1.toLower = name
  · simp [named, other]
  · simp [named]

theorem header_nginxForward :
    (nginxForward client req).header X_FORWARDED_FOR =
      some (.one (proxyAddXForwardedFor client req)) := by
  rw [HttpRequest.header, lines_nginxForward]
  rfl

theorem carries_nginxForward :
    carriesApiCredential (nginxForward client req) = carriesApiCredential req := by
  have kept : ∀ name, name ≠ X_FORWARDED_FOR →
      (nginxForward client req).header name = req.header name := by
    intro name other
    rw [HttpRequest.header, HttpRequest.header, lines_nginxForward_of_ne other]
  rw [carriesApiCredential, carriesApiCredential, kept _ (by decide), kept _ (by decide)]
  rfl

/-- A proxy that appends the address it sees is one hop. -/
theorem ip_nginxForward {hops : ℕ} {socket : Address} :
    E.ip (hops + 1) socket (nginxForward client req) = E.ip hops client req := by
  simp only [ForwardedAddresses.ip, header_nginxForward, Option.map_some, Option.getD_some,
    HeaderValue.toString, proxyAddXForwardedFor]
  cases req.header X_FORWARDED_FOR with
  | none => simp [E.parse_single]
  | some header => simp [E.parse_append]

theorem ip_zero {socket : Address} : E.ip 0 socket req = socket.text := by
  simp [ForwardedAddresses.ip]

theorem ip_one {socket : Address} {value : String}
    (header : req.header X_FORWARDED_FOR = some (.one value))
    (last : value = client.text ∨ ∃ before : String, value = before ++ ", " ++ client.text) :
    E.ip 1 socket req = client.text := by
  rw [ForwardedAddresses.ip, header]
  rcases last with rfl | ⟨before, rfl⟩
  · simp [HeaderValue.toString, E.parse_single]
  · simp [HeaderValue.toString, E.parse_append]

/-- On either stack `req.ip` is the client's own address, whatever the client sends. -/
theorem ip_deliver (shipped : Shipped edge) :
    E.ip edge.hops (edge.deliver client req).1 (edge.deliver client req).2 = client.text := by
  cases shipped with
  | compose nginx => exact ip_nginxForward.trans ip_zero
  | kubernetes T traefik web =>
    obtain ⟨value, header, last⟩ := T.appends client req
    exact ip_nginxForward.trans (ip_one header last)

theorem carries_deliver (shipped : Shipped edge) :
    carriesApiCredential (edge.deliver client req).2 = carriesApiCredential req := by
  cases shipped with
  | compose nginx => exact carries_nginxForward
  | kubernetes T traefik web =>
    refine carries_nginxForward.trans ?_
    rw [carriesApiCredential, carriesApiCredential, T.keeps _ _ "authorization" (by decide),
      T.keeps _ _ "x-api-key" (by decide), HttpRequest.cookie?, HttpRequest.cookie?,
      T.keeps_cookies]

end Addresses

/-! ### What the guard asks -/

/-- A request with a credential is let off this name. -/
def PodRequest.sheds (a : PodRequest) (t : Throttler) : Bool :=
  decide (t.name ∈ a.handler.route.handlerSheds.getD []) && carriesApiCredential a.request

/-- The counter of a request. -/
def PodRequest.hit (a : PodRequest) (t : Throttler) : Hit := ⟨a.handler, t, a.client.text⟩

/-- A name that a request is held to. -/
structure Binds (a : PodRequest) (t : Throttler) : Prop where
  listed : t ∈ buildThrottlerOptions
  kept : t.name ∉ a.handler.route.skipThrottle
  enforced : a.sheds t = false

/-- What arrives of a request. -/
def PodRequest.delivered (edge : ProxyEdge) (a : PodRequest) : HttpRequest :=
  (edge.deliver a.client a.request).2

open CredentialedRequestThrottlerGuard in
theorem sheds_delivered (shipped : Shipped edge) (a : PodRequest) (t : Throttler) :
    shedsForCredentialedRequest (throttlerRequest a.handler.route (a.delivered edge) t) =
      a.sheds t := by
  have ofHandler : a.handler.route.classSheds = none := by cases a.handler <;> rfl
  have carries : carriesApiCredential (a.delivered edge) = carriesApiCredential a.request :=
    carries_deliver shipped
  simp only [shedsForCredentialedRequest, throttlerRequest, ofHandler, Option.or_none, carries,
    PodRequest.sheds]
  by_cases shed : t.name ∈ a.handler.route.handlerSheds.getD []
  · simp [shed]
  · simp [shed]

/-- A thread asks about its own request, and only about names that bind it. -/
def AsksOwn (es : List (Event (pod M E edge))) (hit : Hit) : Prop :=
  ∃ a t, .start a ∈ es ∧ Binds a t ∧ hit = a.hit t

/-- Who is let through has passed by every name that binds the request. -/
def HasPassed (a : PodRequest) (es : List (Event (pod M E edge))) (r : Except Exception Bool) : Prop :=
  r = .ok true → ∀ t, Binds a t → .call (a.hit t) (.ok true) ∈ es

theorem along_guarding (shipped : Shipped edge) {a : PodRequest} {p : Async.Prog throttling Bool}
    {es : List (Event (pod M E edge))} (started : .start a ∈ es)
    (asks : p.Only fun props => ∃ t ∈ buildThrottlerOptions,
      t.name ∉ a.handler.route.skipThrottle ∧
        props = throttlerRequest a.handler.route (a.delivered edge) t)
    (settled : ∀ t, Binds a t → .call (a.hit t) (.ok true) ∈ es ∨ Refuses p ∨
      Demands (throttlerRequest a.handler.route (a.delivered edge) t) p) :
    Along AsksOwn (HasPassed a)
      (CredentialedRequestThrottlerGuard.guarding a.handler a.client.text p) es := by
  induction p generalizing es with
  | done passed =>
    rintro ⟨⟩ t binds
    rcases settled t binds with recorded | refused | demanded
    · exact recorded
    · cases refused
    · cases demanded
  | fail e =>
    rintro ⟨⟩
  | await props k ih =>
    obtain ⟨⟨t, listed, kept, rfl⟩, later⟩ := asks
    rw [CredentialedRequestThrottlerGuard.guarding, sheds_delivered shipped]
    cases shed : a.sheds t with
    | true =>
      -- the answer is made up, and no name that binds the request is asked about
      refine ih _ started (later _) fun t' binds => ?_
      rcases settled t' binds with recorded | refused | demanded
      · exact .inl recorded
      · exact .inr (.inl (refused _))
      · rcases demanded with ⟨same, -⟩ | demanded
        · have equal : t = t' := congrArg ThrottlerRequest.throttler same
          rw [← equal] at binds
          rw [binds.enforced] at shed
          cases shed
        · exact .inr (.inr (demanded _))
    | false =>
      refine ⟨⟨a, t, started, ⟨listed, kept, shed⟩, rfl⟩, fun res _ => ?_⟩
      refine ih res (List.mem_cons_of_mem _ started) (later res) fun t' binds => ?_
      rcases settled t' binds with recorded | refused | demanded
      · exact .inl (List.mem_cons_of_mem _ recorded)
      · exact .inr (.inl (refused res))
      · rcases demanded with ⟨same, demanded⟩ | demanded
        · obtain rfl : t = t' := congrArg ThrottlerRequest.throttler same
          by_cases passed : res = .ok true
          · subst passed
            exact .inl List.mem_cons_self
          · exact .inr (.inl (demanded res passed))
        · exact .inr (.inr (demanded res))

theorem admit_along (shipped : Shipped edge) (a : PodRequest) :
    Along (V := pod M E edge) AsksOwn (HasPassed a) (a.admission M E edge) [.start a] := by
  have ip : E.ip edge.hops (edge.deliver a.client a.request).1 (a.delivered edge) = a.client.text :=
    ip_deliver shipped
  change Along _ _ (CredentialedRequestThrottlerGuard.guarding a.handler
    (E.ip edge.hops (edge.deliver a.client a.request).1 (a.delivered edge)) _) _
  rw [ip]
  refine along_guarding shipped List.mem_cons_self (M.asks _ _ _) fun t binds => ?_
  exact .inr (.inr (M.demands _ _ _ t binds.listed binds.kept))

variable (M E edge) in
/-- What a thread asks, and what it has to show when it is let through. -/
abbrev podContract : Contract (pod M E edge) := .ofHistory AsksOwn HasPassed

theorem podContract_sound (shipped : Shipped edge) : (podContract M E edge).Sound anyStep :=
  Contract.ofHistory_sound (admit_along shipped)

theorem holds_pod (shipped : Shipped edge) {w : PodState M} {c : Config (pod M E edge)}
    (reach : Reach anyStep (initial w) c) : (podContract M E edge).Holds anyStep c :=
  (Contract.ofHistory_holds w).reach (podContract_sound shipped) reach

/-! ### How many pass -/

def Hit.limit (hit : Hit) : ℕ := hit.budget.limit

def Hit.ttl (hit : Hit) : ℕ := hit.budget.ttl

/-- A pass is recorded, and there was room for it; anything else leaves no trace. -/
theorem passes_exec {i : Nat} {hit : Hit} {ch : Unit} {w w' : PodState M}
    {res : Except Exception Bool} (returned : (pod M E edge).exec i hit ch w = some (res, w')) :
    w'.now = w.now ∧
      ((res = .ok true ∧ M.passes w'.storage = (hit, w.now) :: M.passes w.storage ∧
          RateLimit.counting (M.passes w.storage) hit hit.ttl w.now < hit.limit) ∨
        (res ≠ .ok true ∧ M.passes w'.storage = M.passes w.storage)) := by
  obtain ⟨rfl, rfl⟩ := Prod.ext_iff.mp (Option.some.inj returned)
  refine ⟨rfl, ?_⟩
  by_cases passed : (M.handleRequest hit w.now w.storage).1 = .ok true
  · exact .inl ⟨passed, M.passes_ok hit w.now w.storage passed⟩
  · exact .inr ⟨passed, M.passes_refused hit w.now w.storage passed⟩

/-- The storage has kept to the limits so far. -/
def Kept (σ : Shared (pod M E edge)) : Prop :=
  RateLimit.Limited Hit.limit Hit.ttl (M.passes σ.world.storage)

theorem kept_step {σ σ' : Shared (pod M E edge)} (acts : (podContract M E edge).Acts anyStep σ σ')
    (kept : Kept σ) : Kept σ' := by
  cases acts with
  | start n a fresh allowed => exact kept
  | env ms allowed => exact kept
  | call pre returned allowed =>
    obtain ⟨-, ⟨-, passes, free⟩ | ⟨-, passes⟩⟩ := passes_exec returned
    · rw [Kept, Shared.called_world, passes]
      exact .pass kept free
    · rw [Kept, Shared.called_world, passes]
      exact kept

/-- The thread has been let pass by a name. -/
def letPass (hit : Hit) (es : List (Event (pod M E edge))) : Bool :=
  es.any fun
    | .call asked (.ok true) => decide (asked = hit)
    | _ => false

theorem letPass_of_mem {hit : Hit} {es : List (Event (pod M E edge))}
    (passed : .call hit (.ok true) ∈ es) : letPass hit es = true := by
  rw [letPass, List.any_eq_true]
  exact ⟨_, passed, by simp⟩

/-- The threads from the `n`-th on that have been let pass by a name. -/
def letPassSince (n : ℕ) (hit : Hit) (σ : Shared (pod M E edge)) : Finset ℕ :=
  (σ.census (letPass hit)).filter fun i => n ≤ i

theorem mem_letPassSince {n j : ℕ} {hit : Hit} {σ : Shared (pod M E edge)} :
    j ∈ letPassSince n hit σ ↔ letPass hit (σ.own j) = true ∧ n ≤ j := by
  have silent : letPass hit ([] : List (Event (pod M E edge))) = false := rfl
  rw [letPassSince, Finset.mem_filter, Shared.mem_census silent]

theorem letPassSince_called_le {n : ℕ} {hit asked : Hit} {σ : Shared (pod M E edge)} (i : ℕ)
    {res : Except Exception Bool} {w : (pod M E edge).World} :
    (letPassSince n hit (σ.called i asked res w)).card ≤ (letPassSince n hit σ).card + 1 := by
  have grown : letPassSince n hit (σ.called i asked res w) ⊆ insert i (letPassSince n hit σ) := by
    intro j member
    rw [Finset.mem_insert, mem_letPassSince]
    rw [mem_letPassSince] at member
    by_cases same : j = i
    · exact .inl same
    · rw [Shared.called_own_of_ne same] at member
      exact .inr member
  exact Nat.le_trans (Finset.card_le_card grown) (Finset.card_insert_le _ _)

theorem letPass_cons_of_ne {hit asked : Hit} {res : Except Exception Bool}
    {es : List (Event (pod M E edge))} (other : ¬ (res = .ok true ∧ asked = hit)) :
    letPass hit (.call asked res :: es) = letPass hit es := by
  cases res with
  | error e => rfl
  | ok passed =>
    cases passed with
    | false => rfl
    | true =>
      have differs : asked ≠ hit := fun same => other ⟨rfl, same⟩
      simp [letPass, differs]

theorem letPassSince_called_of_ne {n i : ℕ} {hit asked : Hit} {σ : Shared (pod M E edge)}
    {res : Except Exception Bool} {w : (pod M E edge).World}
    (other : ¬ (res = .ok true ∧ asked = hit)) :
    letPassSince n hit (σ.called i asked res w) = letPassSince n hit σ := by
  ext j
  rw [mem_letPassSince, mem_letPassSince]
  by_cases same : j = i
  · subst same
    rw [Shared.called_own_self, letPass_cons_of_ne other]
  · rw [Shared.called_own_of_ne same]

/-- While the window is open, each of these threads has left its pass in it. -/
def Windowed (n s : ℕ) (hit : Hit) (σ : Shared (pod M E edge)) : Prop :=
  s ≤ σ.world.now ∧ (σ.world.now < s + hit.ttl →
    (letPassSince n hit σ).card ≤ RateLimit.within (M.passes σ.world.storage) hit hit.ttl s)

theorem windowed_step {n s : ℕ} {hit : Hit} {σ σ' : Shared (pod M E edge)}
    (acts : (podContract M E edge).Acts anyStep σ σ') (windowed : Windowed n s hit σ) :
    Windowed n s hit σ' := by
  obtain ⟨opened, bounded⟩ := windowed
  cases acts with
  | start m a fresh allowed =>
    refine ⟨opened, fun closes => ?_⟩
    rw [letPassSince, Shared.census_started rfl fresh rfl]
    exact bounded closes
  | env ms allowed =>
    refine ⟨Nat.le_add_right_of_le opened, fun closes => ?_⟩
    exact bounded (Nat.lt_of_le_of_lt (Nat.le_add_right _ ms) closes)
  | @call i asked ch res w pre returned allowed =>
    obtain ⟨same, outcome⟩ := passes_exec returned
    refine ⟨same.symm ▸ opened, fun closes => ?_⟩
    have closes' : σ.world.now < s + hit.ttl := same ▸ closes
    have before := bounded closes'
    change (letPassSince n hit _).card ≤ RateLimit.within (M.passes w.storage) hit hit.ttl s
    by_cases passing : res = .ok true ∧ asked = hit
    · obtain ⟨rfl, rfl⟩ := passing
      rcases outcome with ⟨-, passes, -⟩ | ⟨refused, -⟩
      · rw [passes, RateLimit.within_cons_self _ opened closes']
        exact Nat.le_trans (letPassSince_called_le i) (Nat.succ_le_succ before)
      · exact absurd rfl refused
    · rw [letPassSince_called_of_ne passing]
      rcases outcome with ⟨-, passes, -⟩ | ⟨-, passes⟩
      · rw [passes]
        exact Nat.le_trans before (RateLimit.within_le_cons _ _ _ _ _)
      · rw [passes]
        exact before

/-! ### The limits -/

/-- A request of this client for this handler that may not skip the name was let through. -/
def letThrough (h : Handler) (client : Address) (t : Throttler) (answer : PodRequest × Bool) : Bool :=
  answer.2 && decide (answer.1.handler = h ∧ answer.1.client = client) && !answer.1.sheds t

/-- Those that arrived after the first `n`. -/
def letThroughSince (n : ℕ) (h : Handler) (client : Address) (t : Throttler)
    (c : Config (pod M E edge)) : Finset ℕ :=
  (Finset.range c.threads.length).filter fun i => n ≤ i ∧ (c.answer? i).any (letThrough h client t)

variable {c c' : Config (pod M E edge)} {h : Handler} {client : Address} {t : Throttler}

theorem letThrough_iff {a : PodRequest} {passed : Bool} :
    letThrough h client t (a, passed) = true ↔
      passed = true ∧ (a.handler = h ∧ a.client = client) ∧ a.sheds t = false := by
  simp only [letThrough, Bool.and_eq_true, decide_eq_true_eq, Bool.not_eq_true', and_assoc]

theorem letPass_of_letThrough (holds : (podContract M E edge).Holds anyStep c) {n i : ℕ}
    (listed : t ∈ buildThrottlerOptions) (kept : t.name ∉ h.route.skipThrottle)
    (member : i ∈ letThroughSince n h client t c) :
    i ∈ letPassSince n ⟨h, t, client.text⟩ c.shared := by
  obtain ⟨-, since, found⟩ := Finset.mem_filter.mp member
  obtain ⟨⟨a, passed⟩, answer, test⟩ := (Option.any_eq_true _ _).mp found
  obtain ⟨rfl, ⟨rfl, rfl⟩, enforced⟩ := letThrough_iff.mp test
  have admitted := holds.history_ok (answered_of_answer? answer) rfl t ⟨listed, kept, enforced⟩
  exact mem_letPassSince.mpr ⟨letPass_of_mem admitted, since⟩

/-- Threads that have yet to come have done nothing. -/
theorem letPassSince_now (holds : (podContract M E edge).Holds anyStep c) (hit : Hit) :
    letPassSince c.threads.length hit c.shared = ∅ := by
  ext i
  refine ⟨fun member => ?_, fun none => absurd none (Finset.notMem_empty i)⟩
  obtain ⟨passed, since⟩ := mem_letPassSince.mp member
  obtain ⟨event, own, -⟩ := List.any_eq_true.mp passed
  obtain ⟨entry, logged, rfl, -⟩ := Shared.mem_log_of_mem_own own
  have earlier := holds.logged entry logged
  omega

/-- **Rate limits.** However requests overlap and whatever their headers say, no more of those that
one client sends to one handler get through in a name's time than its budget allows, but for those
that are let off the name. -/
theorem letThrough_le_limit (shipped : Shipped edge) {start : ℕ}
    (reach : Reach anyStep (initial (V := pod M E edge) ⟨start, M.empty⟩) c)
    (later : Reach anyStep c c')
    (listed : t ∈ buildThrottlerOptions) (kept : t.name ∉ h.route.skipThrottle)
    (window : c'.shared.world.now < c.shared.world.now + Hit.ttl ⟨h, t, client.text⟩) :
    (letThroughSince c.threads.length h client t c').card ≤ Hit.limit ⟨h, t, client.text⟩ := by
  have sound := podContract_sound (M := M) (E := E) shipped
  have holds := holds_pod shipped reach
  have holds' := holds_pod shipped (reach.trans later)
  have limited : Kept c'.shared := by
    refine (Contract.ofHistory_holds _).invariant sound (fun _ _ _ => kept_step) ?_
      (reach.trans later)
    change RateLimit.Limited Hit.limit Hit.ttl (M.passes M.empty)
    rw [M.passes_empty]
    exact .nil
  have windowed : Windowed c.threads.length c.shared.world.now ⟨h, t, client.text⟩ c'.shared := by
    refine holds.invariant sound (fun _ _ _ => windowed_step) ⟨Nat.le_refl _, fun _ => ?_⟩ later
    rw [letPassSince_now holds]
    exact Nat.zero_le _
  calc (letThroughSince c.threads.length h client t c').card
    _ ≤ (letPassSince c.threads.length ⟨h, t, client.text⟩ c'.shared).card :=
      Finset.card_le_card fun _ => letPass_of_letThrough holds' listed kept
    _ ≤ RateLimit.within (M.passes c'.shared.world.storage) ⟨h, t, client.text⟩ _ _ :=
      windowed.2 window
    _ ≤ Hit.limit ⟨h, t, client.text⟩ := limited.within_le _ _

/-! ### Whose counters -/

/-- Some request of the run is held to this counter. -/
def Charged (σ : Shared (pod M E edge)) (hit : Hit) : Prop :=
  ∃ i a t, .start a ∈ σ.own i ∧ Binds a t ∧ hit = a.hit t

/-- Every pass on record was somebody's own. -/
def Accounted (σ : Shared (pod M E edge)) : Prop :=
  ∀ p ∈ M.passes σ.world.storage, Charged σ p.1

theorem Charged.mono {σ σ' : Shared (pod M E edge)} (grown : ∀ i, σ.own i ⊆ σ'.own i) {hit : Hit}
    (charged : Charged σ hit) : Charged σ' hit := by
  obtain ⟨i, a, t, started, binds, same⟩ := charged
  exact ⟨i, a, t, grown i started, binds, same⟩

theorem accounted_step {σ σ' : Shared (pod M E edge)}
    (acts : (podContract M E edge).Acts anyStep σ σ') (accounted : Accounted σ) : Accounted σ' := by
  cases acts with
  | start n a fresh allowed =>
    intro p recorded
    refine (accounted p recorded).mono fun i event own => ?_
    exact Shared.mem_own_started.mpr (.inr own)
  | env ms allowed => exact fun p recorded => (accounted p recorded).mono fun _ _ own => own
  | @call i hit ch res w pre returned allowed =>
    have grown : ∀ j, σ.own j ⊆ (σ.called i hit res w).own j :=
      fun j event own => Shared.mem_own_called.mpr (.inr own)
    intro p recorded
    rcases (passes_exec returned).2 with ⟨-, passes, -⟩ | ⟨-, passes⟩
    · rw [Shared.called_world, passes] at recorded
      rcases List.mem_cons.mp recorded with rfl | before
      · obtain ⟨a, t, started, binds, same⟩ : AsksOwn (σ.own i) hit := pre
        exact ⟨i, a, t, grown i started, binds, same⟩
      · exact (accounted p before).mono grown
    · rw [Shared.called_world, passes] at recorded
      exact (accounted p recorded).mono grown

/-- A name that a creation may skip with a credential is for those who have none. -/
theorem carries_of_binds_create {a : PodRequest} {t : Throttler} (binds : Binds a t)
    (create : a.handler = .createLink) (floor : t.name ≠ DATA_THROTTLE_NAME) :
    carriesApiCredential a.request = false := by
  have shed : t.name ∈ a.handler.route.handlerSheds.getD [] := by
    have listed := binds.listed
    rw [create]
    simp only [buildThrottlerOptions, List.mem_cons, List.not_mem_nil, or_false] at listed
    rcases listed with rfl | rfl | rfl | rfl
    · decide
    · decide
    · decide
    · exact absurd rfl floor
  have enforced := binds.enforced
  rw [PodRequest.sheds, decide_eq_true shed, Bool.true_and] at enforced
  exact enforced

/-- **Separate counters.** A request is counted only for its own handler and its own client, by names
it may not skip; so no request counts against another client's or another route's, and none with a
credential against the bounds of guests. -/
theorem charged_of_counted (shipped : Shipped edge) {start : ℕ}
    (reach : Reach anyStep (initial (V := pod M E edge) ⟨start, M.empty⟩) c) :
    (∀ i hit, c.Awaits i hit → ∃ a t, c.Asked i a ∧ Binds a t ∧ hit = a.hit t) ∧
      ∀ p ∈ M.passes c.shared.world.storage, ∃ i a t, c.Asked i a ∧ Binds a t ∧ p.1 = a.hit t ∧
        (a.handler = .createLink → t.name ≠ DATA_THROTTLE_NAME →
          carriesApiCredential a.request = false) := by
  have sound := podContract_sound (M := M) (E := E) shipped
  have holds := holds_pod shipped reach
  constructor
  · intro i hit awaits
    obtain ⟨a, t, started, binds, same⟩ : AsksOwn (c.shared.own i) hit := holds.pre awaits
    exact ⟨a, t, (asked_iff_started reach i a).mpr started, binds, same⟩
  · have accounted : Accounted c.shared := by
      refine (Contract.ofHistory_holds _).invariant sound (fun _ _ _ => accounted_step) ?_ reach
      intro p recorded
      change p ∈ M.passes M.empty at recorded
      rw [M.passes_empty] at recorded
      cases recorded
    intro p recorded
    obtain ⟨i, a, t, started, binds, same⟩ := accounted p recorded
    exact ⟨i, a, t, (asked_iff_started reach i a).mpr started, binds, same,
      carries_of_binds_create binds⟩

/-! ### A pod in memory -/

theorem askThrottlers_asks {route : GuardedRoute} {req : HttpRequest} {passing : Bool}
    {ts all : List Throttler} (among : ts ⊆ all) :
    (askThrottlers route req passing ts).Only fun props =>
      ∃ t ∈ all, t.name ∉ route.skipThrottle ∧ props = throttlerRequest route req t := by
  induction ts generalizing passing with
  | nil => trivial
  | cons t ts ih =>
    have rest : ts ⊆ all := fun _ member => among (List.mem_cons_of_mem _ member)
    unfold askThrottlers
    split
    · exact ih rest
    next asked =>
      refine ⟨⟨t, among List.mem_cons_self, asked, rfl⟩, fun res => ?_⟩
      cases res with
      | ok passed => exact ih rest
      | error e => trivial

theorem askThrottlers_refuses {route : GuardedRoute} {req : HttpRequest} {ts : List Throttler} :
    Refuses (askThrottlers route req false ts) := by
  induction ts with
  | nil => rfl
  | cons t ts ih =>
    unfold askThrottlers
    split
    · exact ih
    · intro res
      cases res with
      | ok passed => exact ih
      | error e => trivial

theorem askThrottlers_demands {route : GuardedRoute} {req : HttpRequest} {passing : Bool}
    {t : Throttler} {ts : List Throttler} (member : t ∈ ts) (asked : t.name ∉ route.skipThrottle) :
    Demands (throttlerRequest route req t) (askThrottlers route req passing ts) := by
  induction ts generalizing passing with
  | nil => cases member
  | cons t' ts ih =>
    unfold askThrottlers
    rcases List.mem_cons.mp member with rfl | later
    · rw [if_neg asked]
      refine .inl ⟨rfl, fun res refused => ?_⟩
      rcases res with e | passed | passed
      · trivial
      · change Refuses (askThrottlers route req (passing && false) ts)
        rw [Bool.and_false]
        exact askThrottlers_refuses
      · exact absurd rfl refused
    · split
      · exact ih later
      · refine .inr fun res => ?_
        cases res with
        | ok passed => exact ih later
        | error e => trivial

/-- Keeps what passed, and turns away who is over the limit. -/
def ThrottlerModule.inMemory : ThrottlerModule where
  canActivate throttlers route req := askThrottlers route req true throttlers
  asks _ _ _ := askThrottlers_asks (List.Subset.refl _)
  demands _ _ _ _ member asked := askThrottlers_demands member asked
  Storage := RateLimit.Log Hit
  empty := []
  handleRequest hit now s :=
    if RateLimit.counting s hit hit.budget.ttl now < hit.budget.limit then
      (.ok true, (hit, now) :: s)
    else (.error (.http (.new (.text "ThrottlerException: Too Many Requests") 429)), s)
  passes := id
  passes_empty := rfl
  passes_ok hit now s passed := by
    split at passed
    next free => rw [if_pos free]; exact ⟨rfl, free⟩
    · cases passed
  passes_refused hit now s refused := by
    split at refused
    · exact absurd rfl refused
    next spent => rw [if_neg spent]

/-- The addresses so far, and the one being read. -/
def readAddress (read : List String × List Char) (c : Char) : List String × List Char :=
  if c = ',' then (String.ofList read.2 :: read.1, [])
  else if c = ' ' then read
  else (read.1, read.2 ++ [c])

theorem foldl_readAddress (cs : List Char) (plain : ∀ c ∈ cs, c ≠ ',' ∧ c ≠ ' ')
    (read : List String × List Char) : cs.foldl readAddress read = (read.1, read.2 ++ cs) := by
  induction cs generalizing read with
  | nil => simp
  | cons c cs ih =>
    obtain ⟨comma, blank⟩ := plain c List.mem_cons_self
    rw [List.foldl_cons, ih fun c' member => plain c' (List.mem_cons_of_mem _ member)]
    simp [readAddress, comma, blank]

def splitAddresses (header : String) : List String :=
  let read := header.toList.foldl readAddress ([], [])
  String.ofList read.2 :: read.1

def ForwardedAddresses.plain : ForwardedAddresses where
  parse := splitAddresses
  parse_single a := by
    simp [splitAddresses, foldl_readAddress _ a.plain]
  parse_append header a := by
    have separated : ", ".toList = [',', ' '] := rfl
    simp [splitAddresses, String.toList_append, List.foldl_append, separated, readAddress,
      foldl_readAddress _ a.plain]

def guesser : Address := ⟨"203.0.113.7", by decide, by simp⟩

def theNginx : Address := ⟨"10.0.0.2", by decide, by simp⟩

/-- Two logins of one client, each under another name. -/
def guesses : List (Move (pod .inMemory .plain (composeEdge theNginx))) :=
  let guess (claimed : String) : PodRequest :=
    ⟨.login, guesser, ⟨[("X-Forwarded-For", claimed)], none⟩⟩
  [.start (guess "198.51.100.1"), .run 0 (), .run 0 (), .run 0 (), .run 0 (),
    .start (guess "198.51.100.2"), .run 1 (), .run 1 (), .run 1 (), .run 1 ()]

def authThrottler : Throttler := ⟨AUTH_THROTTLE_NAME, AUTH_MODULE_BUDGET⟩

theorem letThrough_le_limit_guesses : ∃ c,
    Reach anyStep (initial (V := pod .inMemory .plain (composeEdge theNginx)) ⟨0, []⟩) c ∧
      (letThroughSince 0 .login guesser authThrottler c).card = 2 ∧
      (letThroughSince 0 .login guesser authThrottler c).card ≤ AUTH_CREDENTIAL_BUDGET.limit := by
  obtain ⟨c, reach, passed⟩ := exists_reach_of_play anyStep_of_anyReady
    (initial (V := pod .inMemory .plain (composeEdge theNginx)) ⟨0, []⟩) guesses
    (fun c => decide ((letThroughSince 0 .login guesser authThrottler c).card = 2) &&
      decide (c.shared.world.now < 0 + Hit.ttl ⟨.login, authThrottler, guesser.text⟩))
    (by decide +kernel)
  obtain ⟨both, window⟩ := (Bool.and_eq_true _ _).mp passed
  exact ⟨c, reach, of_decide_eq_true both,
    letThrough_le_limit (.compose theNginx) .refl reach (by decide) (by decide)
      (of_decide_eq_true window)⟩

/-- A guest's creation, up to its first counter. -/
def oneGuest : List (Move (pod .inMemory .plain (composeEdge theNginx))) :=
  [.start ⟨.createLink, guesser, visitor⟩, .run 0 ()]

theorem charged_of_counted_guest : ∃ c,
    Reach anyStep (initial (V := pod .inMemory .plain (composeEdge theNginx)) ⟨0, []⟩) c ∧
      ∃ i a, c.Asked i a ∧ a.handler = .createLink ∧ carriesApiCredential a.request = false := by
  obtain ⟨c, reach, passed⟩ := exists_reach_of_play anyStep_of_anyReady
    (initial (V := pod .inMemory .plain (composeEdge theNginx)) ⟨0, []⟩) oneGuest
    (fun c => decide (((⟨.createLink, ⟨DEFAULT_THROTTLE_NAME, DEFAULT_MODULE_BUDGET⟩, guesser.text⟩,
      0) : Hit × ℕ) ∈ ThrottlerModule.inMemory.passes c.shared.world.storage))
    (by decide +kernel)
  obtain ⟨i, a, t, asked, -, same, bare⟩ :=
    (charged_of_counted (.compose theNginx) reach).2 _ (of_decide_eq_true passed)
  obtain ⟨create, throttler, -⟩ := Hit.mk.inj same
  exact ⟨c, reach, i, a, asked, create.symm, bare create.symm (throttler ▸ by decide)⟩

end Mikrouli
