import Mikrouli.Lib.Calendar
import Mikrouli.Model.Redis

/-! `usage/usage.service.ts`. -/

namespace Mikrouli

open Async

variable (P : Platform)

/-- The first instant of the UTC month of `now` and of the month after it. -/
def getMonthBounds (now : Nat) : Int × Int :=
  let day : Int := now / 86400000
  let year := Calendar.yearOfDay day
  let month := Calendar.monthOfDay day
  (86400000 * Calendar.firstOfMonth year month, 86400000 * Calendar.firstOfMonth year (month + 1))

/-- An instant lies in the month computed for it. -/
theorem getMonthBounds_mem (now : Nat) :
    (getMonthBounds now).1 ≤ now ∧ (now : Int) < (getMonthBounds now).2 := by
  obtain ⟨begun, ends⟩ := Calendar.day_mem_month ((now : Int) / 86400000)
  simp only [getMonthBounds]
  omega

/-- An instant within a month has that month's bounds. -/
theorem getMonthBounds_unique {t now : Nat} (begun : (getMonthBounds t).1 ≤ now)
    (ends : (now : Int) < (getMonthBounds t).2) : getMonthBounds now = getMonthBounds t := by
  simp only [getMonthBounds] at begun ends
  have small : Calendar.monthOfDay ((t : Int) / 86400000) ≤ 11 := Calendar.monthOfYearDay_le _ _ _
  have lower : Calendar.firstOfMonth (Calendar.yearOfDay ((t : Int) / 86400000))
      (Calendar.monthOfDay ((t : Int) / 86400000)) ≤ (now : Int) / 86400000 := by omega
  have upper : (now : Int) / 86400000 < Calendar.firstOfMonth
      (Calendar.yearOfDay ((t : Int) / 86400000)) (Calendar.monthOfDay ((t : Int) / 86400000) + 1) := by
    omega
  simp only [getMonthBounds, Calendar.yearOfDay_unique small lower upper,
    Calendar.monthOfDay_unique small lower upper]

def parsePositiveInt (raw : Option String) (fallback : Int) : Int :=
  match raw with
  | none => fallback
  | some raw =>
    match P.numberInteger raw with
    -- zero and negative limits fall back as well
    | some parsed => if 0 < parsed then parsed else fallback
    | none => fallback

namespace UsageService

def defaultLinkLimit : Int := parsePositiveInt P P.monthlyLinkLimit GLOBAL_LINK_LIMIT
def defaultKeyLimit : Int := parsePositiveInt P P.monthlyKeyLimit GLOBAL_KEY_LIMIT

def resolveLinkLimit (user : User) : Int := user.monthlyLinkLimit.getD (defaultLinkLimit P)
def resolveKeyLimit (user : User) : Int := user.monthlyKeyLimit.getD (defaultKeyLimit P)

def countLinksThisMonth (userId : String) : Prog Nat := do
  let now ← await .dateNow
  let (monthStart, nextMonthStart) := getMonthBounds now
  await (.countLinks userId monthStart nextMonthStart)

def countKeysThisMonth (userId : String) : Prog Nat := do
  let now ← await .dateNow
  let (monthStart, nextMonthStart) := getMonthBounds now
  await (.countKeys userId monthStart nextMonthStart)

def findOneOrFail (userId : String) : Prog User := do
  match ← await (.findUserById userId) with
  | some user => pure user
  | none => throw AppError.entityNotFound

def getLinkLimit (userId : String) : Prog Int := do
  let user ← findOneOrFail userId
  pure (resolveLinkLimit P user)

def getKeyLimit (userId : String) : Prog Int := do
  let user ← findOneOrFail userId
  pure (resolveKeyLimit P user)

end UsageService

structure UsageSummaryResponse where
  linksCreated : Nat
  linkLimit : Int
  linksRemaining : Int
  keysCreated : Nat
  keyLimit : Int
  keysRemaining : Int
  /-- the instant that `toISOString` writes out -/
  resetDate : Int
  retentionMs : Int
  deriving DecidableEq, Repr

/-- `Promise.all` starts both counts at once, each of which reads the clock for itself; neither
writes. -/
def UsageService.getSummary (userId : String) : Prog UsageSummaryResponse := do
  let user ← findOneOrFail userId
  let linkLimit := resolveLinkLimit P user
  let keyLimit := resolveKeyLimit P user
  let linksCreated ← countLinksThisMonth userId
  let keysCreated ← countKeysThisMonth userId
  let linksRemaining := max 0 (linkLimit - linksCreated)
  let keysRemaining := max 0 (keyLimit - keysCreated)
  -- a third reading, after the counts
  let now ← await .dateNow
  let resetDate := (getMonthBounds now).2
  pure ⟨linksCreated, linkLimit, linksRemaining, keysCreated, keyLimit, keysRemaining, resetDate,
    RETENTION_MS⟩

end Mikrouli
