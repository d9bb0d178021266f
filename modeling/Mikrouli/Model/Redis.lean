import Mikrouli.Model.World

/-! `redis/redis.service.ts` and `cache/link-cache.service.ts`. -/

namespace Mikrouli

open Async

abbrev Prog (α : Type) := Async.Prog api α

/-- Awaits one command of the API. -/
abbrev await (c : Cmd) : Prog c.Res := Prog.perform (S := api) c

def setWithOptionalTtl (key value : String) (ttlSeconds : Option Nat) : Prog Unit :=
  match ttlSeconds with
  -- a life of zero seconds is dropped, and the entry never expires
  | some n => if 0 < n then await (.redisSet key value (some n)) else await (.redisSet key value none)
  | none => await (.redisSet key value none)

/-! ### Cache accessors: an error degrades to null -/

def safeGet (key : String) : Prog (Option String) :=
  (await (.redisGet key)).tryCatch fun _ => pure none

def safeSet (key value : String) (ttlSeconds : Option Nat) : Prog Unit :=
  (setWithOptionalTtl key value ttlSeconds).tryCatch fun _ => pure ()

def safeDel (key : String) : Prog Unit :=
  (await (.redisDel key)).tryCatch fun _ => pure ()

/-! ### Revocation-store accessors: an error reaches the caller -/

def getOrThrow (key : String) : Prog (Option String) := await (.redisGet key)

def setOrThrow (key value : String) (ttlSeconds : Option Nat) : Prog Unit :=
  setWithOptionalTtl key value ttlSeconds

def delOrThrow (key : String) : Prog Unit := await (.redisDel key)

def getDelOrThrow (key : String) : Prog (Option String) := await (.redisGetDel key)

/-! ### Link cache -/

def CACHE_PREFIX : String := "link:"
def CACHE_TTL_CAP_SECONDS : Nat := 86400

namespace LinkCacheService

def cacheKey (slug : String) : String := CACHE_PREFIX ++ slug

/-- The time to live of an entry written at `now`, in seconds. -/
def ttlSecondsUntil (expiresAt : Option Int) (now : Nat) : Option Nat :=
  match expiresAt with
  | none => some CACHE_TTL_CAP_SECONDS
  | some x =>
    let diffMs := x - now
    -- `min` takes the cap, the division the floor
    if diffMs ≤ 0 then none else some (min (diffMs / 1000).toNat CACHE_TTL_CAP_SECONDS)

def get (slug : String) : Prog (Option String) := safeGet (cacheKey slug)

/-- Only an expiry makes the code read the clock. -/
def set (slug originalUrl : String) (expiresAt : Option Int) : Prog Unit := do
  let now ← match expiresAt with
    | none => pure 0
    | some _ => await .dateNow
  safeSet (cacheKey slug) originalUrl (ttlSecondsUntil expiresAt now)

def del (slug : String) : Prog Unit := safeDel (cacheKey slug)

end LinkCacheService

theorem cacheKey_inj {slug slug' : String}
    (same : LinkCacheService.cacheKey slug = LinkCacheService.cacheKey slug') : slug = slug' := by
  simpa [LinkCacheService.cacheKey] using same

end Mikrouli
