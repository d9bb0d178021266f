import Mikrouli.Model.ApiKeys
import Mikrouli.Model.Commands
import Mikrouli.Model.Links
import Mikrouli.Properties.Alone

/-! The usage summary against the quota gates, and the months it speaks of. -/

namespace Mikrouli

open Async

variable {P : Platform} {i : Nat} {w : World}

/-! ### Months -/

/-- The UTC year and month of an instant, months counted from 0. -/
def monthOf (t : Nat) : Int × Nat :=
  (Calendar.yearOfDay ((t : Int) / 86400000), Calendar.monthOfDay ((t : Int) / 86400000))

theorem getMonthBounds_eq (t : Nat) :
    getMonthBounds t = (86400000 * Calendar.firstOfMonth (monthOf t).1 (monthOf t).2,
      86400000 * Calendar.firstOfMonth (monthOf t).1 ((monthOf t).2 + 1)) := by
  simp only [getMonthBounds, monthOf]

theorem monthOf_le (t : Nat) : (monthOf t).2 ≤ 11 := by
  simp only [monthOf, Calendar.monthOfDay]
  exact Calendar.monthOfYearDay_le _ _ _

theorem monthOf_next {t next : Nat} (ends : (next : Int) = (getMonthBounds t).2) :
    monthOf next =
      if (monthOf t).2 = 11 then ((monthOf t).1 + 1, 0) else ((monthOf t).1, (monthOf t).2 + 1) := by
  have day : (next : Int) / 86400000 =
      Calendar.firstOfMonth (monthOf t).1 ((monthOf t).2 + 1) := by
    rw [ends, getMonthBounds_eq]
    exact Int.mul_ediv_cancel_left _ (by decide)
  -- the first day of the next month, December included
  obtain ⟨year, month⟩ := Calendar.next_month (y := (monthOf t).1) (monthOf_le t)
  rw [monthOf, day, year, month]
  split <;> rfl

/-- The next month begins where this one ends. -/
theorem getMonthBounds_next {t next : Nat} (ends : (next : Int) = (getMonthBounds t).2) :
    (getMonthBounds next).1 = (getMonthBounds t).2 := by
  rw [getMonthBounds_eq next, getMonthBounds_eq t, monthOf_next ends]
  split
  next december =>
    rw [december]
    simp [Calendar.firstOfMonth]
  · rfl

/-! ### The gates -/

/-- The clock stands still, and the reads a quota is judged by do not fail. -/
def sameInstant (P : Platform) : Setting (machine P) where
  allow
    | .findUserById _, ch, _ | .countLinks _ _ _, ch, _ | .countKeys _ _ _, ch, _ => ch.fault = none
    | _, _, _ => True
  drift w w' := w' = w

def linksOf (userId : String) (month : Int × Int) (w : World) : Nat :=
  w.links.count fun l => l.createdBy userId month.1 month.2

def keysOf (userId : String) (month : Int × Int) (w : World) : Nat :=
  w.apiKeys.count fun k => k.createdBy userId month.1 month.2

/-- A read that is certain to be answered. -/
theorem instant_await {c : Cmd} {a : c.Res} {Q : Except AppError c.Res → World → Prop}
    (answer : ∀ ch, (sameInstant P).allow c ch w → exec P i c ch w = some (.ok a, w))
    (post : Q (.ok a) w) : Always (machine P) (sameInstant P) i Q (await c) w := by
  apply Always.perform
  rintro _ rfl ch res w' allowed returned
  cases returned.symm.trans (answer ch allowed)
  exact post

theorem instant_dateNow {Q : Except AppError Nat → World → Prop} (post : Q (.ok w.now) w) :
    Always (machine P) (sameInstant P) i Q (await .dateNow) w := by
  refine instant_await (fun ch _ => ?_) post
  simp only [exec]

theorem instant_countLinks {userId : String} {Q : Except AppError Nat → World → Prop}
    (post : Q (.ok (linksOf userId (getMonthBounds w.now) w)) w) :
    Always (machine P) (sameInstant P) i Q (UsageService.countLinksThisMonth userId) w := by
  apply Always.bind
  apply instant_dateNow
  refine instant_await (fun ch works => ?_) post
  have up : ch.fault = none := works
  simp [exec, up, linksOf, getMonthBounds]

theorem instant_countKeys {userId : String} {Q : Except AppError Nat → World → Prop}
    (post : Q (.ok (keysOf userId (getMonthBounds w.now) w)) w) :
    Always (machine P) (sameInstant P) i Q (UsageService.countKeysThisMonth userId) w := by
  apply Always.bind
  apply instant_dateNow
  refine instant_await (fun ch works => ?_) post
  have up : ch.fault = none := works
  simp [exec, up, keysOf, getMonthBounds]

theorem instant_findOneOrFail {user : User} {Q : Except AppError User → World → Prop}
    (known : w.userById i user.id = some user) (post : Q (.ok user) w) :
    Always (machine P) (sameInstant P) i Q (UsageService.findOneOrFail user.id) w := by
  apply Always.bind
  refine instant_await (a := some user) (fun ch works => ?_) ?_
  · have up : ch.fault = none := works
    simp [exec, up, known]
  · exact post

/-- The summary of a user at the instant of a world. -/
def summaryAt (P : Platform) (user : User) (w : World) : UsageSummaryResponse :=
  let month := getMonthBounds w.now
  let linkLimit := UsageService.resolveLinkLimit P user
  let keyLimit := UsageService.resolveKeyLimit P user
  ⟨linksOf user.id month w, linkLimit, max 0 (linkLimit - linksOf user.id month w),
    keysOf user.id month w, keyLimit, max 0 (keyLimit - keysOf user.id month w), month.2,
    RETENTION_MS⟩

theorem getSummary_eq {user : User} (known : w.userById i user.id = some user) :
    Always (machine P) (sameInstant P) i (fun r _ => r = .ok (summaryAt P user w))
      (UsageService.getSummary P user.id) w := by
  apply Always.bind
  refine instant_findOneOrFail known ?_
  apply Always.bind
  apply instant_countLinks
  apply Always.bind
  apply instant_countKeys
  apply Always.bind
  apply instant_dateNow
  rfl

/-- The outcome is no error that the code throws as a problem. -/
def NoProblem {α : Type} (r : Except AppError α) : Prop := ∀ p, r ≠ .error (.problem p)

theorem exec_noProblem {c : Cmd} {ch : Choice} {res : Except AppError c.Res} {w' : World}
    (returned : exec P i c ch w = some (res, w')) : NoProblem res := by
  intro p failed
  subst failed
  cases c with
  | verify secret token =>
    cases token <;> simp only [exec] at returned
    all_goals repeat' split at returned
    all_goals cases returned
  | insertLinkWithOutbox fields =>
    rcases exec_insertLinkWithOutbox_error returned with same | same | same
    all_goals cases same
  | insertUser email passwordHash =>
    obtain ⟨-, ⟨-, same, -⟩ | ⟨-, -, ⟨same, -⟩ | ⟨user, -, same, -⟩⟩⟩ := exec_insertUser returned
    all_goals cases same
  | saveProviderAccount providerUserId userId =>
    obtain ⟨-, ⟨-, same, -⟩ | ⟨-, -, ⟨same, -⟩ | ⟨account, -, same, -⟩⟩⟩ :=
      exec_saveProviderAccount returned
    all_goals cases same
  | _ =>
    simp only [exec] at returned
    repeat' split at returned
    all_goals cases returned

section Gates

variable {K : Setting (machine P)} {α β : Type}

theorem await_noProblem {c : Cmd} :
    Always (machine P) K i (fun r _ => NoProblem r) (await c) w := by
  apply Always.perform
  exact fun w₀ _ ch res w' _ returned => exec_noProblem returned

theorem bind_noProblem {p : Prog α} {f : α → Prog β}
    (first : Always (machine P) K i (fun r _ => NoProblem r) p w)
    (next : ∀ a w, Always (machine P) K i (fun r _ => NoProblem r) (f a) w) :
    Always (machine P) K i (fun r _ => NoProblem r) (p >>= f) w := by
  apply Always.bind
  refine first.mono fun r w' none => ?_
  cases r with
  | ok a => exact next a w'
  | error e => exact fun p failed => none p (congrArg Except.error (Except.error.inj failed))

theorem retryOnSlugConflict_noProblem {attempt : Prog Link}
    (first : ∀ w, Always (machine P) K i (fun r _ => NoProblem r) attempt w) (n : Nat) :
    Always (machine P) K i (fun r _ => NoProblem r) (retryOnSlugConflict attempt n) w := by
  induction n generalizing w with
  | zero => exact fun p failed => by cases failed
  | succ n ih =>
    refine bind_noProblem ?_ fun found w' => ?_
    · apply Always.tryCatch
      refine (bind_noProblem (first w) fun link w' => ?_).mono fun r w' none => ?_
      · exact fun p failed => by cases failed
      · cases r with
        | ok link => exact fun p failed => by cases failed
        | error e =>
          dsimp only
          split
          · exact fun p failed => by cases failed
          · exact none
    · cases found with
      | some link => exact fun p failed => by cases failed
      | none => exact ih

/-- Past the gate a creation is not refused for the quota. -/
theorem createUnmetered_noProblem {url userId : String} {explicit : Option (Option Int)} :
    Always (machine P) K i (fun r _ => NoProblem r)
      (LinksService.createUnmetered url userId explicit) w := by
  refine bind_noProblem ?_ fun expiresAt w' => ?_
  · cases explicit with
    | some expiry => exact fun p failed => by cases failed
    | none => exact bind_noProblem await_noProblem fun now w' p failed => by cases failed
  · exact retryOnSlugConflict_noProblem (fun w => bind_noProblem await_noProblem
      fun slug w' => await_noProblem) MAX_SLUG_RETRIES

end Gates

/-- The gate of `LinksService.create` at the instant of a world. -/
theorem create_gate {user : User} {url : String} {explicit : Option (Option Int)}
    (known : w.userById i user.id = some user) :
    Always (machine P) (sameInstant P) i
      (fun r _ => r = .error MonthlyLinkLimitExceededError ↔
        UsageService.resolveLinkLimit P user ≤ linksOf user.id (getMonthBounds w.now) w)
      (LinksService.create P url user.id explicit) w := by
  apply Always.bind
  apply instant_countLinks
  apply Always.bind
  apply Always.bind
  refine instant_findOneOrFail known ?_
  change Always _ _ _ _ (if _ then _ else _) _
  split
  next full => exact iff_of_true rfl full
  next room =>
    -- past the gate nothing fails with a problem
    refine createUnmetered_noProblem.mono fun r w' none => ?_
    exact iff_of_false (fun refused => none _ refused) room

/-- The gate of `ApiKeysService.createForUser` at the instant of a world. -/
theorem createForUser_gate {user : User} {label : String}
    (known : w.userById i user.id = some user) :
    Always (machine P) (sameInstant P) i
      (fun r _ => r = .error MonthlyKeyLimitExceededError ↔
        UsageService.resolveKeyLimit P user ≤ keysOf user.id (getMonthBounds w.now) w)
      (ApiKeysService.createForUser P user.id label) w := by
  apply Always.bind
  apply instant_countKeys
  apply Always.bind
  apply Always.bind
  refine instant_findOneOrFail known ?_
  change Always _ _ _ _ (if _ then _ else _) _
  split
  next full => exact iff_of_true rfl full
  next room =>
    -- past the gate nothing fails with a problem
    refine (?_ : Always (machine P) (sameInstant P) i (fun r _ => NoProblem r) _ w).mono
      fun r w' none => iff_of_false (fun refused => none _ refused) room
    refine bind_noProblem (bind_noProblem await_noProblem fun random w' p failed => by cases failed)
      fun secret w' => bind_noProblem await_noProblem fun hash w' =>
        bind_noProblem await_noProblem fun saved w' p failed => by cases failed

/-- A positive remainder is what the gate asks for. -/
theorem remaining_pos_iff (limit : Int) (count : Nat) : 0 < max 0 (limit - count) ↔ ¬limit ≤ count := by
  rw [lt_max_iff]
  omega

/-- The months tile the time line, and a summary shows something left exactly if the gate of the
same instant admits. -/
theorem allowance_agrees_with_gate :
    ((∀ t : Nat, (getMonthBounds t).1 ≤ t ∧ (t : Int) < (getMonthBounds t).2) ∧
      (∀ t t' : Nat, (getMonthBounds t).1 ≤ t' → (t' : Int) < (getMonthBounds t).2 →
        getMonthBounds t' = getMonthBounds t) ∧
      ∀ t next : Nat, (next : Int) = (getMonthBounds t).2 →
        (getMonthBounds next).1 = (getMonthBounds t).2 ∧
          monthOf next = if (monthOf t).2 = 11 then ((monthOf t).1 + 1, 0)
            else ((monthOf t).1, (monthOf t).2 + 1)) ∧
    ∀ (P : Platform) (w : World) (user : User), (⟨user, none⟩ : Versioned User) ∈ w.users.rows →
      ∀ i r w', Runs (machine P) (sameInstant P) i (UsageService.getSummary P user.id) w r w' →
        ∃ summary, r = .ok summary ∧ 0 ≤ summary.linksRemaining ∧ 0 ≤ summary.keysRemaining ∧
          (∀ j url explicit outcome w'',
            Runs (machine P) (sameInstant P) j (LinksService.create P url user.id explicit) w outcome
              w'' →
            (outcome ≠ .error MonthlyLinkLimitExceededError ↔ 0 < summary.linksRemaining)) ∧
          ∀ j label outcome w'',
            Runs (machine P) (sameInstant P) j (ApiKeysService.createForUser P user.id label) w outcome
              w'' →
            (outcome ≠ .error MonthlyKeyLimitExceededError ↔ 0 < summary.keysRemaining) := by
  refine ⟨⟨getMonthBounds_mem, fun t t' => getMonthBounds_unique, ?_⟩, ?_⟩
  · exact fun t next ends => ⟨getMonthBounds_next ends, monthOf_next ends⟩
  · intro P w user row i r w' shown
    have known (j : Nat) : w.userById j user.id = some user := userById_of_row row
    refine ⟨summaryAt P user w, (getSummary_eq (known i)).runs shown, ?_, ?_, ?_, ?_⟩
    · exact Int.le_max_left _ _
    · exact Int.le_max_left _ _
    · intro j url explicit outcome w'' created
      have gate := (create_gate (known j)).runs created
      exact (not_congr gate).trans (remaining_pos_iff _ _).symm
    · intro j label outcome w'' created
      have gate := (createForUser_gate (known j)).runs created
      exact (not_congr gate).trans (remaining_pos_iff _ _).symm

/-- A user who may create one link a month, and no key. -/
def frugalUser : User := ⟨"u", "u@ab.cd", none, some 1, some (-3), 0⟩

/-- The last millisecond of a month in which the user has created a link. -/
def monthsEnd : World := { World.empty 2678399999 with
  users := ⟨[⟨frugalUser, none⟩], by simp⟩
  links := ⟨[⟨⟨"abc123", by decide⟩, "https://ab.cd", "u", 5000, none⟩], by simp⟩ }

theorem sameInstant_still (w : World) : (sameInstant P).drift w w := rfl

theorem allow_sameInstant {ch : Choice} (works : ch.fault = none) (c : Cmd) (w : World) :
    (sameInstant P).allow c ch w := by
  cases c <;> first | exact works | trivial

theorem allowance_agrees_with_gate_monthsEnd :
    ∃ summary w', Runs (machine Platform.plain) (sameInstant Platform.plain) 0
        (UsageService.getSummary Platform.plain "u") monthsEnd (.ok summary) w' ∧
      summary.linksRemaining = 0 ∧ summary.keysRemaining = 0 := by
  have works : ∀ ch ∈ List.replicate 6 ({} : Choice), ch.fault = none := by simp
  have allowed : ∀ ch ∈ List.replicate 6 ({} : Choice), ∀ c w,
      (sameInstant Platform.plain).allow c ch w :=
    fun ch member => allow_sameInstant (works ch member)
  obtain ⟨r, w₁, shown, -⟩ := exists_runs_of_replay (M := machine Platform.plain) (i := 0)
    (p := UsageService.getSummary Platform.plain "u") (w := monthsEnd) sameInstant_still _ allowed
    (fun _ => true) (by decide +kernel)
  obtain ⟨r', w₂, created, refused⟩ := exists_runs_of_replay (M := machine Platform.plain) (i := 1)
    (p := LinksService.create Platform.plain "https://cd.ef" "u" none) (w := monthsEnd)
    sameInstant_still _ allowed
    (fun x => decide (x.1 = .error MonthlyLinkLimitExceededError)) (by decide +kernel)
  obtain ⟨r'', w₃, keyed, refused'⟩ := exists_runs_of_replay (M := machine Platform.plain) (i := 1)
    (p := ApiKeysService.createForUser Platform.plain "u" "label") (w := monthsEnd)
    sameInstant_still _ allowed
    (fun x => decide (x.1 = .error MonthlyKeyLimitExceededError)) (by decide +kernel)
  have row : (⟨frugalUser, none⟩ : Versioned User) ∈ monthsEnd.users.rows := List.mem_singleton_self _
  obtain ⟨summary, rfl, links, keys, linkGate, keyGate⟩ :=
    allowance_agrees_with_gate.2 Platform.plain monthsEnd frugalUser row 0 r w₁ shown
  refine ⟨summary, w₁, shown, Int.le_antisymm ?_ links, Int.le_antisymm ?_ keys⟩
  · exact Int.not_lt.mp fun left =>
      (linkGate 1 _ _ _ _ created).mpr left (of_decide_eq_true refused)
  · exact Int.not_lt.mp fun left => (keyGate 1 _ _ _ keyed).mpr left (of_decide_eq_true refused')

/-! ### One summary, three readings of the clock -/

/-- What a call read from the clock. -/
def reading? : Call api → Option Nat
  | ⟨.dateNow, .ok t⟩ => some t
  | _ => none

/-- The clock values a run has read, newest first. -/
def readings (log : List (Call api)) : List Nat := log.filterMap reading?

/-- Both numbers count the creations of one month, and the reset date is the first instant of the
next. -/
def DescribesOneMonth (userId : String) (w : World) (summary : UsageSummaryResponse) : Prop :=
  ∃ t : Nat, summary.linksCreated = linksOf userId (getMonthBounds t) w ∧
    summary.keysCreated = keysOf userId (getMonthBounds t) w ∧
    summary.resetDate = (getMonthBounds t).2

/-- The tables a summary counts. -/
def World.SameRows (w w' : World) : Prop := w'.links = w.links ∧ w'.apiKeys = w.apiKeys

theorem ticking_dateNow {Q : Except AppError Nat → World × List (Call api) → Prop}
    {log : List (Call api)}
    (read : ∀ t w' log', w.SameRows w' → readings log' = t :: readings log → Q (.ok t) (w', log')) :
    Always (machine P).recorded (ticking P).recorded i Q (await .dateNow) (w, log) := by
  apply ticking_perform
  intro ms ch res w' returned
  obtain ⟨rfl, rfl⟩ := exec_dateNow returned
  exact read _ _ _ ⟨rfl, rfl⟩ rfl

theorem ticking_countLinks {userId : String} {Q : Except AppError Nat → World × List (Call api) → Prop}
    {log : List (Call api)} (fails : ∀ e x, Q (.error e) x)
    (read : ∀ t w' log', w.SameRows w' → readings log' = t :: readings log →
      Q (.ok (linksOf userId (getMonthBounds t) w)) (w', log')) :
    Always (machine P).recorded (ticking P).recorded i Q (UsageService.countLinksThisMonth userId)
      (w, log) := by
  apply Always.bind
  apply ticking_dateNow
  intro t w₁ log₁ same₁ reads
  apply ticking_perform
  intro ms ch res w' returned
  obtain ⟨rfl, rfl | rfl⟩ := exec_countLinks returned
  · exact fails _ _
  · have rows := read t (w₁.advance ms) (⟨.countLinks userId (getMonthBounds t).1
      (getMonthBounds t).2, .ok (linksOf userId (getMonthBounds t) w)⟩ :: log₁) same₁ reads
    rw [linksOf, ← same₁.1] at rows
    exact rows

theorem ticking_countKeys {userId : String} {Q : Except AppError Nat → World × List (Call api) → Prop}
    {log : List (Call api)} (fails : ∀ e x, Q (.error e) x)
    (read : ∀ t w' log', w.SameRows w' → readings log' = t :: readings log →
      Q (.ok (keysOf userId (getMonthBounds t) w)) (w', log')) :
    Always (machine P).recorded (ticking P).recorded i Q (UsageService.countKeysThisMonth userId)
      (w, log) := by
  apply Always.bind
  apply ticking_dateNow
  intro t w₁ log₁ same₁ reads
  apply ticking_perform
  intro ms ch res w' returned
  obtain ⟨rfl, rfl | rfl⟩ := exec_countKeys returned
  · exact fails _ _
  · have rows := read t (w₁.advance ms) (⟨.countKeys userId (getMonthBounds t).1
      (getMonthBounds t).2, .ok (keysOf userId (getMonthBounds t) w)⟩ :: log₁) same₁ reads
    rw [keysOf, ← same₁.2] at rows
    exact rows

/-- The two counts and the reset date each come with a reading of their own. -/
theorem getSummary_readings {userId : String} :
    Always (machine P).recorded (ticking P).recorded i
      (fun r w' => ∀ summary, r = .ok summary → ∃ t₁ t₂ t₃, readings w'.2 = [t₃, t₂, t₁] ∧
        summary.linksCreated = linksOf userId (getMonthBounds t₁) w ∧
        summary.keysCreated = keysOf userId (getMonthBounds t₂) w ∧
        summary.resetDate = (getMonthBounds t₃).2)
      (UsageService.getSummary P userId) (w, []) := by
  have fails (e : AppError) (x : World × List (Call api)) : ∀ summary,
      (Except.error e : Except AppError UsageSummaryResponse) = .ok summary →
        ∃ t₁ t₂ t₃, readings x.2 = [t₃, t₂, t₁] ∧
          summary.linksCreated = linksOf userId (getMonthBounds t₁) w ∧
          summary.keysCreated = keysOf userId (getMonthBounds t₂) w ∧
          summary.resetDate = (getMonthBounds t₃).2 :=
    fun _ failed => by cases failed
  apply Always.bind
  apply Always.bind
  apply ticking_perform
  intro ms ch res w₀ returned
  obtain ⟨rfl, ⟨-, rfl⟩ | rfl⟩ := exec_findUserById returned
  · exact fails _ _
  have rows₀ : w.SameRows (w.advance ms) := ⟨rfl, rfl⟩
  cases (w.advance ms).userById i userId with
  | none => exact fails _ _
  | some user =>
    apply Always.bind
    refine ticking_countLinks fails fun t₁ w₁ log₁ rows₁ reads₁ => ?_
    apply Always.bind
    refine ticking_countKeys fails fun t₂ w₂ log₂ rows₂ reads₂ => ?_
    apply Always.bind
    refine ticking_dateNow fun t₃ w₃ log₃ rows₃ reads₃ => ?_
    rintro summary ⟨⟩
    refine ⟨t₁, t₂, t₃, ?_, rfl, ?_, rfl⟩
    · rw [reads₃, reads₂, reads₁]
      rfl
    · rw [keysOf, keysOf, rows₁.2]
      rfl

/-- A user whose one link was created at a given instant. -/
def linkCreatedAt (t : Nat) : World := { World.empty 0 with
  users := ⟨[⟨frugalUser, none⟩], by simp⟩
  links := ⟨[⟨⟨"abc123", by decide⟩, "https://ab.cd", "u", t, none⟩], by simp⟩ }

/-- The next command may be answered after a while. -/
theorem may_tick {α : Type} {c : Cmd} {k : Except AppError c.Res → Prog α} {log : List (Call api)}
    {Q : Except AppError α → World × List (Call api) → Prop} (ms : Nat)
    (res : Except AppError c.Res) (w₁ : World)
    (returned : exec P i c {} (w.advance ms) = some (res, w₁))
    (rest : May (machine P).recorded (ticking P).recorded i Q (k res) (w₁, ⟨c, res⟩ :: log)) :
    May (machine P).recorded (ticking P).recorded i Q (.await c k) (w, log) :=
  May.recorded_await (M := machine P) (K := ticking P) ⟨ms, rfl⟩ trivial returned rest

theorem linksOf_linkCreatedAt (t : Nat) : linksOf "u" (getMonthBounds t) (linkCreatedAt t) = 1 := by
  obtain ⟨begun, ends⟩ := getMonthBounds_mem t
  simp [linksOf, linkCreatedAt, Store.Table.count, Link.createdBy, begun, ends]

/-- The clock may show any three values in order during a call. -/
theorem may_read (P : Platform) (i : Nat) {t₁ t₂ t₃ : Nat} (first : t₁ ≤ t₂) (second : t₂ ≤ t₃) :
    May (machine P).recorded (ticking P).recorded i
      (fun r w' => ∃ summary, r = .ok summary ∧ readings w'.2 = [t₃, t₂, t₁] ∧
        summary.linksCreated = 1 ∧ summary.resetDate = (getMonthBounds t₃).2)
      (UsageService.getSummary P "u") (linkCreatedAt t₁, []) := by
  obtain ⟨later, rfl⟩ := Nat.exists_eq_add_of_le first
  obtain ⟨latest, rfl⟩ := Nat.exists_eq_add_of_le second
  have clock (ms : Nat) : (linkCreatedAt t₁).advance ms = { linkCreatedAt t₁ with now := ms } := by
    simp [World.advance, linkCreatedAt, World.empty]
  have counted := linksOf_linkCreatedAt t₁
  -- the user, then each reading with its count, and the last reading
  apply may_tick 0 (.ok (some frugalUser)) (linkCreatedAt t₁)
  · simp only [exec]
    rfl
  apply may_tick t₁ (.ok t₁) { linkCreatedAt t₁ with now := t₁ }
  · simp only [exec, clock]
  apply may_tick 0 (.ok 1) { linkCreatedAt t₁ with now := t₁ }
  · simp only [exec, Option.isSome_none, Bool.false_eq_true, ↓reduceIte]
    rw [linksOf] at counted
    exact congrArg (fun n => some (Except.ok n, _)) counted
  apply may_tick later (.ok (t₁ + later)) { linkCreatedAt t₁ with now := t₁ + later }
  · simp only [exec]
    rfl
  apply may_tick 0 (.ok 0) { linkCreatedAt t₁ with now := t₁ + later }
  · simp only [exec]
    rfl
  apply may_tick latest (.ok (t₁ + later + latest))
    { linkCreatedAt t₁ with now := t₁ + later + latest }
  · simp only [exec]
    rfl
  exact .done ⟨_, rfl, rfl, rfl, rfl⟩

theorem getMonthBounds_of_end {t t' : Nat} (same : (getMonthBounds t).2 = (getMonthBounds t').2) :
    getMonthBounds t = getMonthBounds t' := by
  obtain ⟨begun, ends⟩ := getMonthBounds_mem t
  obtain ⟨begun', ends'⟩ := getMonthBounds_mem t'
  -- months that end together overlap
  rcases Nat.le_total t t' with before | after
  · exact (getMonthBounds_unique (by omega) (by omega)).symm
  · exact getMonthBounds_unique (by omega) (by omega)

/-- What a summary shows describes one month exactly if that month's creations are as many as
those of the months in which the two counts read the clock. -/
theorem describesOneMonth_iff {userId : String} {w' : World × List (Call api)}
    {summary : UsageSummaryResponse} {t₁ t₂ t₃ : Nat}
    (run : Runs (machine P).recorded (ticking P).recorded i (UsageService.getSummary P userId)
      (w, []) (.ok summary) w') (reads : readings w'.2 = [t₃, t₂, t₁]) :
    DescribesOneMonth userId w summary ↔
      linksOf userId (getMonthBounds t₁) w = linksOf userId (getMonthBounds t₃) w ∧
        keysOf userId (getMonthBounds t₂) w = keysOf userId (getMonthBounds t₃) w := by
  obtain ⟨u₁, u₂, u₃, reads', links, keys, reset⟩ := getSummary_readings.runs run summary rfl
  -- the readings are those of the run
  cases reads.symm.trans reads'
  rw [DescribesOneMonth, links, keys, reset]
  constructor
  · rintro ⟨t, links, keys, ends⟩
    rw [getMonthBounds_of_end ends]
    exact ⟨links, keys⟩
  · exact fun ⟨links, keys⟩ => ⟨t₃, links, keys, rfl⟩

/-- For given readings of the clock, every summary describes one month exactly if the first and the
last reading lie in one. -/
theorem summary_one_month_iff {t₁ t₂ t₃ : Nat} (first : t₁ ≤ t₂) (second : t₂ ≤ t₃) :
    ((∀ (userId : String) (w : World) (summary : UsageSummaryResponse)
        (w' : World × List (Call api)),
        Runs (machine P).recorded (ticking P).recorded i (UsageService.getSummary P userId) (w, [])
          (.ok summary) w' → readings w'.2 = [t₃, t₂, t₁] → DescribesOneMonth userId w summary) ↔
      getMonthBounds t₁ = getMonthBounds t₃) ∧
    ∀ (userId : String) (w : World) (summary : UsageSummaryResponse) (w' : World × List (Call api)),
      Runs (machine P).recorded (ticking P).recorded i (UsageService.getSummary P userId) (w, [])
        (.ok summary) w' → readings w'.2 = [t₃, t₂, t₁] →
      (DescribesOneMonth userId w summary ↔
        linksOf userId (getMonthBounds t₁) w = linksOf userId (getMonthBounds t₃) w ∧
          keysOf userId (getMonthBounds t₂) w = keysOf userId (getMonthBounds t₃) w) := by
  refine ⟨⟨fun always => ?_, fun same userId w summary w' run reads => ?_⟩, ?_⟩
  · obtain ⟨r, w', run, summary, rfl, reads, created, -⟩ := may_read P i first second
    obtain ⟨links, -⟩ := (describesOneMonth_iff run reads).mp (always "u" _ summary w' run reads)
    -- the one link lies in the month of the last reading as well
    rw [linksOf_linkCreatedAt] at links
    have inside : (getMonthBounds t₃).1 ≤ t₁ ∧ (t₁ : Int) < (getMonthBounds t₃).2 := by
      by_contra outside
      rw [not_and_or] at outside
      rcases outside with early | late
      · simp [linksOf, linkCreatedAt, Store.Table.count, Link.createdBy, early] at links
      · simp [linksOf, linkCreatedAt, Store.Table.count, Link.createdBy, late] at links
    exact getMonthBounds_unique inside.1 inside.2
  · have begun := (getMonthBounds_mem t₁).1
    have ends := (getMonthBounds_mem t₃).2
    rw [← same] at ends
    -- the second reading lies between the other two
    have middle : getMonthBounds t₂ = getMonthBounds t₁ :=
      getMonthBounds_unique (by omega) (by omega)
    rw [describesOneMonth_iff run reads, middle, same]
    exact ⟨rfl, rfl⟩
  · exact fun userId w summary w' run reads => describesOneMonth_iff run reads

/-- Three readings within January 1970. -/
theorem summary_one_month_iff_january :
    ∃ summary, DescribesOneMonth "u" (linkCreatedAt 5000) summary ∧ summary.linksCreated = 1 := by
  obtain ⟨r, w', run, summary, rfl, reads, created, -⟩ :=
    may_read Platform.plain 0 (show 5000 ≤ 6000 by decide) (show 6000 ≤ 7000 by decide)
  have january : getMonthBounds 5000 = getMonthBounds 7000 :=
    getMonthBounds_unique (t := 7000) (by decide) (by decide)
  have always := (@summary_one_month_iff Platform.plain 0 5000 6000 7000 (by decide)
    (by decide)).1.mpr january
  exact ⟨summary, always "u" _ summary w' run reads, created⟩

/-- Counts of January beside the reset date of February. -/
theorem summary_of_two_months :
    ¬∀ (t₁ t₂ t₃ : Nat), t₁ ≤ t₂ → t₂ ≤ t₃ →
      ∀ (userId : String) (w : World) (summary : UsageSummaryResponse)
        (w' : World × List (Call api)),
        Runs (machine Platform.plain).recorded (ticking Platform.plain).recorded 0
          (UsageService.getSummary Platform.plain userId) (w, []) (.ok summary) w' →
        readings w'.2 = [t₃, t₂, t₁] → DescribesOneMonth userId w summary := by
  intro always
  obtain ⟨r, w', run, summary, rfl, reads, created, -⟩ :=
    may_read Platform.plain 0 (show 2678399999 ≤ 2678399999 by decide)
      (show 2678399999 ≤ 2678400000 by decide)
  have described := always 2678399999 2678399999 2678400000 (by decide) (by decide) "u" _ summary w'
    run reads
  obtain ⟨links, -⟩ := (describesOneMonth_iff run reads).mp described
  rw [linksOf_linkCreatedAt] at links
  exact absurd links (by decide)

end Mikrouli
