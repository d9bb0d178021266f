import Mikrouli.Model.Usage

/-! `links/links.service.ts`, `links/links.controller.ts`, `redirect/redirect.service.ts` and
`cleanup/cleanup.service.ts`. -/

namespace Mikrouli

open Async

variable (P : Platform)

def MAX_SLUG_RETRIES : Nat := 5
def CLEANUP_BATCH_SIZE : Nat := 1000

structure PublicLink where
  shortUrl : String
  originalUrl : String
  createdAt : Nat
  expiresAt : Option Int
  deriving DecidableEq, Repr

def toPublicLinkSchema (link : Link) : PublicLink :=
  ⟨link.shortUrl.1, link.originalUrl, link.createdAt, link.expiresAt⟩

/-- An explicit expiry may be undefined, null or an instant. -/
def resolveExpiry (explicit : Option (Option Int)) : Prog (Option Int) :=
  match explicit with
  | some expiry => pure expiry
  | none => do
    let now ← await .dateNow
    pure (some (now + RETENTION_MS))

def tryOnce (attempt : Prog Link) : Prog (Option Link) :=
  (do
    let link ← attempt
    pure (some link) : Prog (Option Link)).tryCatch fun err =>
      -- any violation counts as a collision, whichever constraint it names
      if isUniqueViolation err then pure none else throw err

def retryOnSlugConflict (attempt : Prog Link) : Nat → Prog Link
  | 0 => throw (AppError.conflict "failed to generate unique slug after retries")
  | n + 1 => do
    match ← tryOnce attempt with
    | some link => pure link
    | none => retryOnSlugConflict attempt n

namespace LinksService

def tryCreate (originalUrl userId : String) (expiresAt : Option Int) : Prog Link := do
  let shortUrl ← await .generateSlug
  await (.insertLinkWithOutbox ⟨shortUrl, originalUrl, userId, expiresAt⟩)

/-- What both creation paths share: the expiry, then the insert with slug retries. -/
def createUnmetered (originalUrl userId : String) (explicitExpiry : Option (Option Int)) :
    Prog Link := do
  let expiresAt ← resolveExpiry explicitExpiry
  retryOnSlugConflict (tryCreate originalUrl userId expiresAt) MAX_SLUG_RETRIES

/-- `Promise.all` starts both reads at once. No statement of the API writes a limit, so the
order in which the two reads reach the database does not matter. -/
def create (originalUrl userId : String) (explicitExpiry : Option (Option Int)) : Prog Link := do
  let count ← UsageService.countLinksThisMonth userId
  let limit ← UsageService.getLinkLimit P userId
  -- nothing is locked between this comparison and the insert
  if limit ≤ count then throw MonthlyLinkLimitExceededError
  else createUnmetered originalUrl userId explicitExpiry

def createGuest (originalUrl guestUserId : String) (explicitExpiry : Option (Option Int)) :
    Prog Link := createUnmetered originalUrl guestUserId explicitExpiry

def findBySlug (slug : String) : Prog (Option Link) := await (.findLink slug)

def getOwnedLink (slug userId : String) : Prog Link := do
  match ← await (.findLink slug) with
  | none => throw (AppError.notFound ("Link " ++ slug ++ " not found"))
  -- a stranger's link is forbidden, not missing
  | some link => if link.userId ≠ userId then throw AppError.forbidden else pure link

def delete (slug userId : String) : Prog Unit := do
  let _ ← getOwnedLink slug userId
  -- the DELETE names the slug alone
  let _ ← await (.deleteLink slug)
  pure ()

/-- The row that was read is answered; how many rows the UPDATE changed is not looked at. -/
def updateDestination (slug userId url : String) : Prog Link := do
  let link ← getOwnedLink slug userId
  let _ ← await (.updateLink slug userId url)
  pure { link with originalUrl := url }

end LinksService

namespace LinksController

structure RequestUser where
  id : String
  isGuest : Bool
  deriving DecidableEq, Repr

def create (user : RequestUser) (url : String) (expiresAt : Option (Option Int)) :
    Prog PublicLink := do
  let link ← if user.isGuest then LinksService.createGuest url user.id expiresAt
    else LinksService.create P url user.id expiresAt
  LinkCacheService.set link.shortUrl.1 link.originalUrl link.expiresAt
  pure (toPublicLinkSchema link)

def remove (userId slug : String) : Prog Unit := do
  LinksService.delete slug userId
  LinkCacheService.del slug

def update (userId slug url : String) : Prog PublicLink := do
  let link ← LinksService.updateDestination slug userId url
  match link.expiresAt with
  | none => LinkCacheService.set link.shortUrl.1 link.originalUrl none
  | some x =>
    let now ← await .dateNow
    -- an expired link is not written to the cache but deleted from it
    if x ≤ now then LinkCacheService.del slug
    else LinkCacheService.set link.shortUrl.1 link.originalUrl (some x)
  pure (toPublicLinkSchema link)

end LinksController

inductive RedirectResolution where
  | active (originalUrl : String)
  | expired
  | notFound
  deriving DecidableEq, Repr

def hasHttpScheme (url : String) : Bool :=
  decide (P.urlProtocol url = some "http:") || decide (P.urlProtocol url = some "https:")

/-- An instant at which the link has expired; a link without expiry never has. -/
def isExpiredAt (expiresAt : Option Int) (now : Nat) : Bool :=
  expiresAt.any fun x => decide (x ≤ (now : Int))

/-- Only an expiry makes the code read the clock. -/
def isExpired (link : Link) : Prog Bool :=
  match link.expiresAt with
  | none => pure false
  | some x => do
    let now ← await .dateNow
    pure (isExpiredAt (some x) now)

namespace RedirectService

def resolveFromDatabase (slug : String) : Prog RedirectResolution := do
  match ← LinksService.findBySlug slug with
  | none => pure .notFound
  | some link =>
    if ← isExpired link then pure .expired
    -- any other scheme is answered like a missing row
    else if hasHttpScheme P link.originalUrl = false then pure .notFound
    else do
      LinkCacheService.set slug link.originalUrl link.expiresAt
      pure (.active link.originalUrl)

def resolve (slug : String) : Prog RedirectResolution := do
  match ← LinkCacheService.get slug with
  | some cached =>
    -- a hit is answered without a look at the row
    if hasHttpScheme P cached = false then pure .notFound else pure (.active cached)
  | none => resolveFromDatabase P slug

end RedirectService

namespace CleanupService

def findExpiredLinks (now : Nat) : Prog (List Link) := await (.findExpiredLinks now CLEANUP_BATCH_SIZE)

def removeFromDbAndCache (slug : String) : Prog Unit := do
  let _ ← await (.deleteLink slug)
  LinkCacheService.del slug

def deleteOneSafely (link : Link) : Prog Bool :=
  (do
    removeFromDbAndCache link.shortUrl.1
    -- one failure does not stop the batch
    pure true : Prog Bool).tryCatch fun _ => pure false

def processBatch (count : Nat) : List Link → Prog Nat
  | [] => pure count
  | link :: expired => do
    let ok ← deleteOneSafely link
    processBatch (if ok then count + 1 else count) expired

def handleCleanup : Prog Nat := do
  let now ← await .dateNow
  let expired ← findExpiredLinks now
  processBatch 0 expired

end CleanupService

end Mikrouli
