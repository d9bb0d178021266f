import Mikrouli.Properties.Quota

/-! The monthly link quota over sequential runs: it counts the rows there are, not the
creations there were. -/

namespace Mikrouli

open Async Store

variable {P : Platform}

/-! ### Runs within a month -/

/-- The clock moves, but not into another month; any statement may fail. -/
def withinMonth (P : Platform) : Setting (machine P) where
  allow _ _ _ := True
  drift w w' := ∃ ms, w' = w.advance ms ∧ getMonthBounds w'.now = getMonthBounds w.now

theorem withinMonth_still (w : World) : (withinMonth P).drift w w := ⟨0, rfl, rfl⟩

/-- Requests one after the other within a month; a guard says when the user may create. -/
def monthRegime (P : Platform) (userId : String)
    (guard : List (Served (mikrouli P)) → World → Prop) : Regime (mikrouli P) where
  toSetting := withinMonth P
  idle := (withinMonth P).drift
  next h w r := QuotaRequest userId r ∧ (r.linkOwner? = some userId → guard h w)

/-- The request is answered with a link of the user. -/
def answersLink (userId : String) (r : Req) (ans : Except AppError Ans) : Bool :=
  decide (r.linkOwner? = some userId) && ans.isOk

theorem answersLink_error (userId : String) (r : Req) (e : AppError) :
    answersLink userId r (.error e) = false := Bool.and_false _

theorem answersLink_ok {userId : String} {r : Req} (owner : r.linkOwner? = some userId)
    (a : Ans) : answersLink userId r (.ok a) = true := by
  simp [answersLink, owner, Except.isOk, Except.toBool]

/-- How many links the user has created, whether they are still there or not. -/
def created (userId : String) (h : List (Served (mikrouli P))) : Nat :=
  h.countP fun s => answersLink userId s.request s.answer

variable {userId : String} {month : Int × Int} {limit : Int} {i n : Nat} {w w' : World}

/-- Inside the month, with the user's limit as it is and `n` rows that count. -/
structure Tally (P : Platform) (userId : String) (month : Int × Int) (limit : Int) (n : Nat)
    (w : World) : Prop where
  side : (linkGate P userId month limit).Side w
  rows : linkRows userId month w = n

theorem Tally.drift (tally : Tally P userId month limit n w)
    (drifted : (withinMonth P).drift w w') : Tally P userId month limit n w' := by
  obtain ⟨ms, rfl, same⟩ := drifted
  exact ⟨⟨same.trans tally.side.month, tally.side.limit⟩, tally.rows⟩

/-! ### Creations -/

section Creations

/-- A command that leaves links and accounts alone. -/
theorem within_await {c : Cmd} {Q : Except AppError c.Res → World → Prop}
    (accounts : c.writesAccounts = false) (links : c.writesLinks = false)
    (tally : Tally P userId month limit n w)
    (post : ∀ ch res w₀ w', Tally P userId month limit n w₀ →
      Tally P userId month limit n w' → exec P i c ch w₀ = some (res, w') → Q res w') :
    Always (machine P) (withinMonth P) i Q (await c) w := by
  apply Always.perform
  intro w₀ drifted ch res w' _ returned
  have before := tally.drift drifted
  have frame := exec_frame returned
  refine post ch res w₀ w' before ⟨before.side.step returned accounts, ?_⟩ returned
  rw [linkRows, frame.links links]
  exact before.rows

theorem within_countLinks (tally : Tally P userId month limit n w) :
    Always (machine P) (withinMonth P) i
      (fun r w' => Tally P userId month limit n w' ∧ ∀ m : Nat, r = .ok m → m = n)
      (UsageService.countLinksThisMonth userId) w := by
  apply Always.bind
  apply within_await rfl rfl tally
  intro ch res w₀ w₁ before tally₁ returned
  obtain ⟨rfl, rfl⟩ := exec_dateNow returned
  have bounds : getMonthBounds w₁.now = month := before.side.month
  change Always _ _ i _ (await (.countLinks userId (getMonthBounds w₁.now).1
    (getMonthBounds w₁.now).2)) _
  rw [bounds]
  apply within_await rfl rfl tally₁
  intro ch₂ res₂ w₂ w₃ before₂ tally₂ returned₂
  refine ⟨tally₂, fun m answered => ?_⟩
  obtain ⟨rfl, rfl | rfl⟩ := exec_countLinks returned₂
  · cases answered
  · cases answered
    exact before₂.rows

theorem within_getLinkLimit (tally : Tally P userId month limit n w) :
    Always (machine P) (withinMonth P) i
      (fun r w' => Tally P userId month limit n w' ∧ ∀ l : Int, r = .ok l → l = limit)
      (UsageService.getLinkLimit P userId) w := by
  apply Always.bind
  apply Always.bind
  apply within_await rfl rfl tally
  intro ch res w₀ w₁ before tally₁ returned
  obtain ⟨rfl, ⟨-, rfl⟩ | rfl⟩ := exec_findUserById returned
  · exact ⟨tally₁, fun _ answered => by cases answered⟩
  cases found : w₁.userById i userId with
  | none => exact ⟨tally₁, fun _ answered => by cases answered⟩
  | some user =>
    obtain ⟨v, member, rfl, -, same⟩ := World.userById_eq_some found
    refine ⟨tally₁, ?_⟩
    rintro l ⟨⟩
    exact before.side.limit v member same

/-- A link answered is a row more; any other answer leaves the rows as they were. -/
def Adds (P : Platform) (userId : String) (month : Int × Int) (limit : Int) (n : Nat)
    (r : Except AppError Link) (w : World) : Prop :=
  match r with
  | .ok _ => Tally P userId month limit (n + 1) w
  | .error _ => Tally P userId month limit n w

theorem within_insert {fields : LinkFields} (owner : fields.userId = userId)
    (tally : Tally P userId month limit n w) :
    Always (machine P) (withinMonth P) i (Adds P userId month limit n)
      (await (.insertLinkWithOutbox fields)) w := by
  apply Always.perform
  intro w₀ drifted ch res w' _ returned
  have before := tally.drift drifted
  have side := before.side.step returned rfl
  rcases exec_insertLinkWithOutbox returned with ⟨rfl, e, rfl⟩ | ⟨link, links, rfl, inserted, row, rfl⟩
  · exact before
  · have counted := count_createdBy_insert userId month inserted
    -- the row is dated by the clock of its insertion, which is still inside the month
    have mine : link.createdBy userId month.1 month.2 = true := by
      have inMonth := getMonthBounds_mem w₀.now
      rw [show getMonthBounds w₀.now = month from before.side.month] at inMonth
      rw [row]
      simpa [Link.createdBy, owner] using inMonth
    rw [mine, before.rows] at counted
    exact ⟨side, counted⟩

theorem within_retryOnSlugConflict {url : String} {expiresAt : Option Int} {attempts : Nat}
    (tally : Tally P userId month limit n w) :
    Always (machine P) (withinMonth P) i (Adds P userId month limit n)
      (retryOnSlugConflict (LinksService.tryCreate url userId expiresAt) attempts) w := by
  induction attempts generalizing w with
  | zero => exact tally
  | succ attempts ih =>
    apply Always.bind
    apply Always.tryCatch
    apply Always.bind
    apply Always.bind
    apply within_await rfl rfl tally
    intro ch res w₀ w₁ _ tally₁ returned
    obtain ⟨-, slug, -, rfl⟩ := exec_generateSlug returned
    refine (within_insert rfl tally₁).mono fun r w₂ added => ?_
    cases r with
    | ok link => exact added
    | error e =>
      simp only
      split
      -- a collision has inserted nothing, so the next attempt starts from the same tally
      next => exact ih added
      next => exact added

theorem within_createUnmetered {url : String} {explicit : Option (Option Int)}
    (tally : Tally P userId month limit n w) :
    Always (machine P) (withinMonth P) i (Adds P userId month limit n)
      (LinksService.createUnmetered url userId explicit) w := by
  apply Always.bind
  -- an explicit expiry spares the read of the clock
  cases explicit with
  | some expiry => exact within_retryOnSlugConflict tally
  | none =>
    apply Always.bind
    apply within_await rfl rfl tally
    intro ch res w₀ w₁ _ tally₁ returned
    obtain ⟨-, rfl⟩ := exec_dateNow returned
    exact within_retryOnSlugConflict tally₁

/-- A creation succeeds only below the limit. -/
theorem within_create {url : String} {explicit : Option (Option Int)}
    (tally : Tally P userId month limit n w) :
    Always (machine P) (withinMonth P) i
      (fun r w' => Adds P userId month limit n r w' ∧ (r.isOk = true → (n : Int) < limit))
      (LinksService.create P url userId explicit) w := by
  apply Always.bind
  refine (within_countLinks tally).mono fun r w₁ counted => ?_
  cases r with
  | error e => exact ⟨counted.1, fun ok => by cases ok⟩
  | ok m =>
    obtain ⟨tally₁, rows⟩ := counted
    have same : m = n := rows m rfl
    subst same
    apply Always.bind
    refine (within_getLinkLimit tally₁).mono fun r w₂ limited => ?_
    cases r with
    | error e => exact ⟨limited.1, fun ok => by cases ok⟩
    | ok l =>
      obtain ⟨tally₂, same⟩ := limited
      have limit_eq : l = limit := same l rfl
      subst limit_eq
      simp only
      split
      next => exact ⟨tally₂, fun ok => by cases ok⟩
      -- the count still holds at the insertion: no other request runs in between
      next below =>
        refine (within_createUnmetered tally₂).mono fun r w₃ added => ⟨added, fun _ => ?_⟩
        exact Int.not_le.mp below

end Creations

/-! ### Requests -/

theorem Tally.of_only {α : Type} {p : Prog α} (only : Prog.Only (LinkNeutral userId) p)
    (tally : Tally P userId month limit n w) :
    Always (machine P) (withinMonth P) i
      (fun _ w' => ∃ m ≤ n, Tally P userId month limit m w') p w := by
  refine Always.of_only only ?_ ?_ ⟨n, Nat.le_refl n, tally⟩
  · rintro w w' ⟨m, fewer, tally⟩ drifted
    exact ⟨m, fewer, tally.drift drifted⟩
  · rintro c ch w res w' neutral ⟨m, fewer, tally⟩ _ returned
    have rows := linkRows_of_neutral month neutral returned
    rw [tally.rows] at rows
    exact ⟨_, Nat.le_trans rows fewer, tally.side.step returned neutral.accounts, rfl⟩

/-- Caching adds no row, and cannot turn a creation into a failure. -/
theorem within_cacheSet {slug url : String} {expiresAt : Option Int}
    (tally : Tally P userId month limit n w) :
    Always (machine P) (withinMonth P) i
      (fun r w' => r = .ok () ∧ ∃ m ≤ n, Tally P userId month limit m w')
      (LinkCacheService.set slug url expiresAt) w := by
  -- whatever Redis answers, the creation goes on
  have writes : ∀ ttl w, Tally P userId month limit n w → Always (machine P) (withinMonth P) i
      (fun r w' => r = .ok () ∧ ∃ m ≤ n, Tally P userId month limit m w')
      (safeSet (LinkCacheService.cacheKey slug) url ttl) w := by
    intro ttl w tally
    apply Always.tryCatch
    refine (tally.of_only (only_setWithOptionalTtl fun _ => rfl)).mono fun r w' rows => ?_
    cases r with
    | ok _ => exact ⟨rfl, rows⟩
    | error e => exact ⟨rfl, rows⟩
  cases expiresAt with
  | none => exact writes _ w tally
  | some x =>
    apply Always.bind
    apply within_await rfl rfl tally
    intro ch res w₀ w₁ _ tally₁ returned
    obtain ⟨-, rfl⟩ := exec_dateNow returned
    exact writes _ w₁ tally₁

/-- What a request does to the tally: a link answered to the user came from below the limit and
is a row more at most; everything else adds none. -/
structure Counts (P : Platform) (userId : String) (month : Int × Int) (limit : Int) (n : Nat)
    (r : Req) (ans : Except AppError Ans) (w : World) : Prop where
  below : answersLink userId r ans = true → (n : Int) < limit
  rows : ∃ m ≤ n + (if answersLink userId r ans then 1 else 0), Tally P userId month limit m w

theorem Counts.of_rows {r : Req} {ans : Except AppError Ans}
    (other : answersLink userId r ans = false) (rows : ∃ m ≤ n, Tally P userId month limit m w) :
    Counts P userId month limit n r ans w := by
  constructor
  · rw [other]
    exact fun answered => by cases answered
  · rw [other]
    exact rows

theorem Counts.of_link {r : Req} {ans : Except AppError Ans}
    (answered : answersLink userId r ans = true) (below : (n : Int) < limit)
    (rows : ∃ m ≤ n + 1, Tally P userId month limit m w) :
    Counts P userId month limit n r ans w := by
  constructor
  · exact fun _ => below
  · rw [answered]
    exact rows

theorem serve_counts {r : Req} (quota : QuotaRequest userId r)
    (tally : Tally P userId month limit n w) :
    Always (machine P) (withinMonth P) i (Counts P userId month limit n r) (serve P r) w := by
  by_cases mine : r.linkOwner? = some userId
  · cases r with
    | createLink user url expiresAt =>
      have same : user.id = userId := Option.some.inj mine
      have metered := quota.2 user url expiresAt rfl same
      subst same
      apply Always.map
      unfold LinksController.create
      rw [metered]
      apply Always.bind
      refine (within_create tally).mono fun r w₁ added => ?_
      cases r with
      | error e => exact .of_rows (answersLink_error _ _ _) ⟨n, Nat.le_refl n, added.1⟩
      | ok link =>
        have below := added.2 rfl
        apply Always.bind
        refine (within_cacheSet added.1).mono fun r w₂ cached => ?_
        obtain ⟨rfl, rows⟩ := cached
        exact .of_link (answersLink_ok mine _) below rows
    | createShortLink u url expiresAt =>
      have same : u = userId := Option.some.inj mine
      subst same
      apply Always.bind
      refine (within_create tally).mono fun r w₁ added => ?_
      cases r with
      | error e => exact .of_rows (answersLink_error _ _ _) ⟨n, Nat.le_refl n, added.1⟩
      | ok link =>
        exact .of_link (answersLink_ok mine _) (added.2 rfl) ⟨n + 1, Nat.le_refl _, added.1⟩
    | _ => cases mine
  · refine (tally.of_only ((serve_only P r).mono fun c issued => ?_)).mono fun ans w' rows => ?_
    · exact linkNeutral_of_mayIssue quota mine issued
    · exact .of_rows (by simp [answersLink, mine]) rows

/-! ### Whole runs -/

/-- The links the user has created since `w₀`, with those of the month that were there. -/
abbrev total (userId : String) (w₀ : World) (h : List (Served (mikrouli P))) : Nat :=
  linkRows userId (getMonthBounds w₀.now) w₀ + created userId h

/-- The user may create as long as none of this month's links is gone, or fewer than the limit
have been created. -/
def NoneGoneOrBelow (userId : String) (limit : Int) (w₀ : World) (h : List (Served (mikrouli P)))
    (w : World) : Prop :=
  total userId w₀ h ≤ linkRows userId (getMonthBounds w₀.now) w ∨ (total userId w₀ h : Int) < limit

instance (userId : String) (limit : Int) (w₀ : World) (h : List (Served (mikrouli P))) (w : World) :
    Decidable (NoneGoneOrBelow userId limit w₀ h w) := inferInstanceAs (Decidable (_ ∨ _))

/-- As long as the user only creates with none of this month's links gone, or fewer created than
the limit, no creation takes the links created this month above the limit. -/
theorem created_within_limit {w₀ : World}
    (limits : ∀ v ∈ w₀.users.rows, v.row.id = userId →
      UsageService.resolveLinkLimit P v.row = limit)
    {h : List (Served (mikrouli P))}
    (session : Session (monthRegime P userId (NoneGoneOrBelow userId limit w₀)) w₀ h w) :
    linkRows userId (getMonthBounds w₀.now) w ≤ total userId w₀ h ∧
      (total userId w₀ h : Int) ≤ max (linkRows userId (getMonthBounds w₀.now) w₀ : Int) limit := by
  suffices inv : (∃ n ≤ total userId w₀ h, Tally P userId (getMonthBounds w₀.now) limit n w) ∧
      (total userId w₀ h : Int) ≤ max (linkRows userId (getMonthBounds w₀.now) w₀ : Int) limit by
    obtain ⟨⟨n, fewer, tally⟩, bound⟩ := inv
    rw [tally.rows]
    exact ⟨fewer, bound⟩
  refine Session.invariant (fun h w =>
      (∃ n ≤ total userId w₀ h, Tally P userId (getMonthBounds w₀.now) limit n w) ∧
        (total userId w₀ h : Int) ≤ max (linkRows userId (getMonthBounds w₀.now) w₀ : Int) limit)
    ?_ ?_ ?_ session
  · exact ⟨⟨_, Nat.le_refl _, ⟨rfl, limits⟩, rfl⟩, le_max_left _ _⟩
  · rintro h w w' ⟨⟨n, fewer, tally⟩, bound⟩ idled
    exact ⟨⟨n, fewer, tally.drift idled⟩, bound⟩
  · rintro h w r ⟨⟨n, fewer, tally⟩, bound⟩ ⟨quota, allowed⟩
    refine (serve_counts quota tally).mono fun ans w' counts => ?_
    have grown : total userId w₀ (⟨r, ans, w, w'⟩ :: h) =
        total userId w₀ h + if answersLink userId r ans then 1 else 0 := by
      rw [total, created, List.countP_cons, ← Nat.add_assoc]
      rfl
    obtain ⟨m, rows, tally'⟩ := counts.rows
    rw [grown]
    refine ⟨⟨m, by omega, tally'⟩, ?_⟩
    cases answered : answersLink userId r ans with
    | false => simpa using bound
    | true =>
      -- the gate saw fewer rows than the limit
      have below := counts.below answered
      have owner : r.linkOwner? = some userId := by
        simp only [answersLink, Bool.and_eq_true, decide_eq_true_eq] at answered
        exact answered.1
      apply le_max_of_le_right
      simp only [↓reduceIte]
      rcases allowed owner with present | spare
      · rw [tally.rows] at present
        omega
      · omega

/-! ### One link a month -/

/-- The requests that add links, or remove them. -/
def Req.addsOrRemovesLinks : Req → Bool
  | .createLink _ _ _ | .createShortLink _ _ _ | .removeLink _ _ | .cleanup => true
  | _ => false

/-- A link is created, deleted, and another one created. -/
def createDeleteCreate : List (Line (mikrouli Platform.plain)) :=
  [.serve shortLink [{}, {}, {}, { draw := "abc123" }, {}],
   .serve (.removeLink "u" "abc123") [{}, {}, {}],
   .serve shortLink [{}, {}, {}, { draw := "def456" }, {}]]

theorem monthRegime_fair {lines : List (Line (mikrouli Platform.plain))} {userId : String}
    {guard : List (Served (mikrouli Platform.plain)) → World → Prop}
    (requests : ∀ e, .tick e ∉ lines) :
    ∀ line ∈ lines, line.Fair (monthRegime Platform.plain userId guard) := by
  intro line member
  cases line with
  | serve r chs => exact fun _ _ _ _ => trivial
  | tick e => exact absurd member (requests e)

theorem quotaRequest_of_eq {r : Req} (request : r = shortLink ∨ r = .removeLink "u" "abc123") :
    QuotaRequest "u" r := by
  rcases request with rfl | rfl
  · exact ⟨rfl, fun _ _ _ other => by cases other⟩
  · exact ⟨rfl, fun _ _ _ other => by cases other⟩

/-- Runs a script of creations and deletions of the limited user that passes a test. -/
theorem exists_monthSession (guard : List (Served (mikrouli Platform.plain)) → World → Prop)
    [∀ h w, Decidable (guard h w)] (lines : List (Line (mikrouli Platform.plain)))
    (requests : ∀ e, .tick e ∉ lines)
    (test : List (Served (mikrouli Platform.plain)) → World → Bool)
    (passed : ((recite (fun h w (r : Req) =>
      decide (r = shortLink ∨ r = .removeLink "u" "abc123") && decide (guard h w)) lines [] limitedUser).any fun x => test x.1 x.2) = true) :
    ∃ h w, Session (monthRegime Platform.plain "u" guard) limitedUser h w ∧ test h w = true := by
  refine exists_session_of_recite withinMonth_still (fun h w r ready => ?_) limitedUser lines
    (monthRegime_fair requests) test passed
  simp only [Bool.and_eq_true, decide_eq_true_eq] at ready
  exact ⟨quotaRequest_of_eq ready.1, fun _ => ready.2⟩

theorem created_within_limit_limitedUser :
    ∃ h : List (Served (mikrouli Platform.plain)),
      created "u" h = 1 ∧ (created "u" h : Int) ≤ 1 := by
  obtain ⟨h, w, session, passed⟩ := exists_monthSession
    (NoneGoneOrBelow "u" 1 limitedUser) (createDeleteCreate.take 2)
    (by simp [createDeleteCreate]) (fun h _ => decide (created "u" h = 1)) (by decide +kernel)
  have bound := (created_within_limit (by decide) session).2
  have fresh : linkRows "u" (getMonthBounds limitedUser.now) limitedUser = 0 := rfl
  rw [total, fresh] at bound
  exact ⟨h, of_decide_eq_true passed, by omega⟩

/-- A deleted link gives its allowance back. -/
theorem allowance_given_back :
    ¬∀ (P : Platform) (w₀ : World) (userId : String) (limit : Int),
      (∀ v ∈ w₀.users.rows, v.row.id = userId →
        UsageService.resolveLinkLimit P v.row = limit) →
      w₀.links.rows = [] → 0 ≤ limit →
      ∀ h w, Session (monthRegime P userId fun _ _ => True) w₀ h w →
        (∀ s ∈ h, s.request.addsOrRemovesLinks = true) → (created userId h : Int) ≤ limit := by
  intro never
  obtain ⟨h, w, session, passed⟩ := exists_monthSession (fun _ _ => True)
    createDeleteCreate (by simp [createDeleteCreate])
    (fun h _ => decide (created "u" h = 2) && h.all fun s => s.request.addsOrRemovesLinks)
    (by decide +kernel)
  simp only [Bool.and_eq_true, decide_eq_true_eq, List.all_eq_true] at passed
  obtain ⟨twice, requests⟩ := passed
  have below := never Platform.plain limitedUser "u" 1 (by decide) rfl (by decide) h w session
    requests
  omega

end Mikrouli
