import Mikrouli.Model.Usage

/-! `api-keys/api-keys.service.ts`. -/

namespace Mikrouli

open Async

def KEY_NAMESPACE : String := "mk_"
def KEY_PREFIX_LENGTH : Nat := 8

structure CreatedApiKey where
  id : String
  label : String
  key : String
  keyPrefix : String
  createdAt : Nat
  deriving DecidableEq, Repr

structure ApiKeySummary where
  id : String
  label : String
  keyPrefix : String
  createdAt : Nat
  lastUsedAt : Option Nat
  revokedAt : Option Nat
  deriving DecidableEq, Repr

def extractSummary (key : ApiKey) : ApiKeySummary :=
  ⟨key.id, key.label, key.keyPrefix, key.createdAt, key.lastUsedAt, key.revokedAt⟩

def buildCreatedResult (saved : ApiKey) (key keyPrefix : String) : CreatedApiKey :=
  ⟨saved.id, saved.label, key, keyPrefix, saved.createdAt⟩

/-- A UTF-16 code unit of a text: a character of its own, or half of a surrogate pair. -/
inductive CodeUnit where
  | whole (c : Char)
  | high (c : Char)
  | low (c : Char)

def codeUnits (s : String) : List CodeUnit :=
  s.toList.flatMap fun c => if c.toNat < 65536 then [.whole c] else [.high c, .low c]

/-- The characters of code units; a half on its own is sent to the database as U+FFFD. -/
def characters : List CodeUnit → List Char
  | [] => []
  | .whole c :: units => c :: characters units
  | .high c :: .low _ :: units => c :: characters units
  | .high _ :: units => '\uFFFD' :: characters units
  | .low _ :: units => '\uFFFD' :: characters units

/-- `s.slice(start, start + size)` -/
def slice (s : String) (start size : Nat) : String :=
  String.ofList (characters (((codeUnits s).drop start).take size))

namespace ApiKeysService

variable (P : Platform)

def generateSecret : Prog (String × String) := do
  let random ← await .randomSecret
  pure (KEY_NAMESPACE ++ random, slice random 0 KEY_PREFIX_LENGTH)

def parsePrefix (plaintext : String) : String :=
  slice plaintext KEY_NAMESPACE.length KEY_PREFIX_LENGTH

def createForUser (userId label : String) : Prog CreatedApiKey := do
  let count ← UsageService.countKeysThisMonth userId
  let limit ← UsageService.getKeyLimit P userId
  -- as with links, nothing is locked from here on
  if limit ≤ count then throw MonthlyKeyLimitExceededError
  else
    let (plaintext, keyPrefix) ← generateSecret
    -- the plaintext goes into the answer only, the row keeps its hash
    let keyHash ← await (.bcryptHash plaintext)
    let saved ← await (.saveApiKey userId label keyHash keyPrefix)
    pure (buildCreatedResult saved plaintext keyPrefix)

def listForUser (userId : String) : Prog (List ApiKeySummary) := do
  let keys ← await (.listApiKeys userId)
  pure (keys.map extractSummary)

def revoke (userId id : String) : Prog Unit := do
  let now ← await .dateNow
  let affected ← await (.revokeApiKey id userId now)
  -- an unknown key, another user's and a revoked one look the same
  if affected = 0 then throw (AppError.notFound ("API key " ++ id ++ " not found")) else pure ()

/-- The source does not wait for this update and only logs its failure; here the call answers when
it is done. -/
def markUsed (id : String) : Prog Unit :=
  (do
    let now ← await .dateNow
    await (.touchApiKey id now) : Prog Unit).tryCatch fun _ => pure ()

def validate (plaintext : String) : Prog (Option String) := do
  -- one candidate is compared, also where several keys share the prefix
  match ← await (.findLiveApiKey (parsePrefix plaintext)) with
  | none => pure none
  | some key =>
    if P.bcryptCompare plaintext key.keyHash = false then pure none
    else
      markUsed key.id
      pure (some key.userId)

end ApiKeysService

end Mikrouli
