import Mikrouli.Model.Redis

/-! `users/users.service.ts`: registration with decoys, and find-or-create-or-link for OAuth. -/

namespace Mikrouli

open Async

/-- TypeORM's transaction wrapper: commit after the body, roll back and rethrow on an error. -/
def transaction {α : Type} (body : Prog α) : Prog α :=
  (do
    let result ← body
    await .commit
    pure result : Prog α).tryCatch fun err => do
      await .rollback
      throw err

/-- Nothing is persisted: the answer only looks like a registered user. -/
def buildDecoyUser (email : String) : Prog User := do
  let id ← await .randomUUID
  let now ← await .dateNow
  pure ⟨id, email, some "", none, none, now⟩

def saveOrDecoy (email : String) (passwordHash : Option String) : Prog User :=
  (transaction (await (.insertUser email passwordHash))).tryCatch fun err =>
    if isUniqueViolation err then buildDecoyUser email else throw err

/-- The three ordered branches: a known identity, an account with the email, a new account. -/
def resolveProviderIdentity (params : GithubIdentity) : Prog User := do
  match ← await (.findProviderAccount params.providerUserId) with
  | some existing =>
    match ← await (.findUserById existing.userId) with
    | some user => pure user
    -- the account of a user that is gone
    | none => throw AppError.entityNotFound
  | none =>
    match ← await (.findUserByEmail params.email) with
    | some userByEmail =>
      -- the email alone links the identity, also to an account with a password
      let _ ← await (.saveProviderAccount params.providerUserId userByEmail.id)
      pure userByEmail
    | none =>
      let _ ← await (.insertUser params.email none)
      match ← await (.findUserByEmail params.email) with
      -- the row is read back under the transaction that inserted it
      | some inserted =>
        let _ ← await (.saveProviderAccount params.providerUserId inserted.id)
        pure inserted
      | none => throw AppError.entityNotFound

namespace UsersService

def findByEmail (email : String) : Prog (Option User) := await (.findUserByEmail email)

def findById (id : String) : Prog (Option User) := await (.findUserById id)

def create (email : String) (passwordHash : Option String) : Prog User :=
  saveOrDecoy email passwordHash

/-- A unique violation makes the whole resolution run once more, and only once. -/
def findOrCreateFromProvider (params : GithubIdentity) : Prog User :=
  (transaction (resolveProviderIdentity params)).tryCatch fun err =>
    if isUniqueViolation err then transaction (resolveProviderIdentity params) else throw err

end UsersService

end Mikrouli
