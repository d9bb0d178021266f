import Mikrouli.Lib.ExpiringStore
import Mikrouli.Lib.Interleaving
import Mikrouli.Model.Data

/-! The stores the API works on and the commands it awaits: single SQL statements,
Redis commands, and the reads of the clock and the random source. -/

namespace Mikrouli

open Async Store

/-! ### Signature -/

structure LinkFields where
  shortUrl : Char6
  originalUrl : String
  userId : String
  expiresAt : Option Int
  deriving DecidableEq, Repr

inductive Cmd where
  | dateNow
  | randomUUID
  | randomSecret
  | randomState
  | generateSlug
  | bcryptHash (password : String)
  | sign (secret : String) (payload : JwtPayload) (expiresIn : Nat)
  | verify (secret : String) (token : Token)
  | redisGet (key : String)
  | redisSet (key value : String) (ex : Option Nat)
  | redisDel (key : String)
  | redisGetDel (key : String)
  | commit
  | rollback
  | findUserByEmail (email : String)
  | findUserById (id : String)
  | insertUser (email : String) (passwordHash : Option String)
  | findProviderAccount (providerUserId : String)
  | saveProviderAccount (providerUserId userId : String)
  | findLink (slug : String)
  | insertLinkWithOutbox (fields : LinkFields)
  | updateLink (slug userId originalUrl : String)
  | deleteLink (slug : String)
  | findExpiredLinks (now : Nat) (take : Nat)
  | countLinks (userId : String) (monthStart nextMonthStart : Int)
  | countKeys (userId : String) (monthStart nextMonthStart : Int)
  | saveApiKey (userId label keyHash keyPrefix : String)
  | revokeApiKey (id userId : String) (now : Nat)
  | findLiveApiKey (keyPrefix : String)
  | touchApiKey (id : String) (now : Nat)
  | listApiKeys (userId : String)
  deriving DecidableEq, Repr

abbrev Cmd.Res : Cmd → Type
  | .dateNow => Nat
  | .randomUUID => String
  | .randomSecret => String
  | .randomState => String
  | .generateSlug => Char6
  | .bcryptHash _ => String
  | .sign _ _ _ => Jwt
  | .verify _ _ => JwtPayload
  | .redisGet _ => Option String
  | .redisSet _ _ _ => Unit
  | .redisDel _ => Unit
  | .redisGetDel _ => Option String
  | .commit => Unit
  | .rollback => Unit
  | .findUserByEmail _ => Option User
  | .findUserById _ => Option User
  | .insertUser _ _ => User
  | .findProviderAccount _ => Option ProviderAccount
  | .saveProviderAccount _ _ => ProviderAccount
  | .findLink _ => Option Link
  | .insertLinkWithOutbox _ => Link
  | .updateLink _ _ _ => Nat
  | .deleteLink _ => Nat
  | .findExpiredLinks _ _ => List Link
  | .countLinks _ _ _ => Nat
  | .countKeys _ _ _ => Nat
  | .saveApiKey _ _ _ _ => ApiKey
  | .revokeApiKey _ _ _ => Nat
  | .findLiveApiKey _ => Option ApiKey
  | .touchApiKey _ _ => Unit
  | .listApiKeys _ => List ApiKey

abbrev api : Signature := ⟨Cmd, Cmd.Res, AppError⟩

/-! ### World -/

structure World where
  now : Nat
  redis : Expiring String String
  users : UserTable
  providerAccounts : ProviderTable
  links : LinkTable
  outbox : List Outbox
  apiKeys : ApiKeyTable
  /-- every token the server has signed -/
  signed : List Jwt
  /-- every identifier and secret drawn so far -/
  drawn : List String

def World.empty (now : Nat) : World :=
  ⟨now, Expiring.empty, Table.empty, Table.empty, Table.empty, [], Table.empty, [], []⟩

/-- What the environment decides about one command: whether (and at which statement) it
fails, the random value it draws, and which rows an unordered query picks. -/
structure Choice where
  fault : Option Nat := none
  draw : String := ""
  batch : List Link := []
  pick : Option ApiKey := none

abbrev Outcome (c : Cmd) := Option (Except AppError c.Res × World)

namespace World

variable (w : World)

/-- A fresh random value: never drawn before, never empty. -/
def drawFresh (draw : String) : Option World :=
  if draw = "" ∨ draw ∈ w.drawn then none else some { w with drawn := draw :: w.drawn }

def link? (slug : String) : Option Link := w.links.byKey Link.slugKey (bpchar slug)

def commitRows {V : Type} (i : Nat) (v : Versioned V) : Versioned V :=
  if v.tx = some i then { v with tx := none } else v

theorem commitRows_row {V : Type} (i : Nat) (v : Versioned V) : (commitRows i v).row = v.row := by
  unfold commitRows
  split <;> rfl

theorem commitRows_userKeys (i : Nat) : ∀ k ∈ userKeys, ∀ v, k (commitRows i v) = k v := by
  simp [userKeys, commitRows_row]

theorem commitRows_providerKeys (i : Nat) :
    ∀ k ∈ providerKeys, ∀ v, k (commitRows i v) = k v := by
  simp [providerKeys, commitRows_row]

def commit (i : Nat) : World := { w with
  users := w.users.update (fun _ => true) (commitRows i) (commitRows_userKeys i)
  providerAccounts :=
    w.providerAccounts.update (fun _ => true) (commitRows i) (commitRows_providerKeys i) }

def rollback (i : Nat) : World := { w with
  users := w.users.delete fun v => decide (v.tx = some i)
  providerAccounts := w.providerAccounts.delete fun v => decide (v.tx = some i) }

/-- `INSERT` under unique constraints: a clash with a visible row is a violation, a clash
with another transaction's uncommitted row waits. -/
def insertVersioned {V : Type} {keys : List (Versioned V → String)}
    (t : Table (Versioned V) keys) (i : Nat) (row : V) :
    Option (Except AppError (Table (Versioned V) keys)) :=
  -- a clash with a row this transaction cannot see is left to `insert?`, which has no result
  if t.rows.any fun r => r.visible i && keys.any fun k => decide (k r = k ⟨row, some i⟩) then
    some (.error .uniqueViolation)
  else (t.insert? ⟨row, some i⟩).map .ok

def userByEmail (i : Nat) (email : String) : Option User :=
  (w.users.find? fun v => v.visible i && decide (v.row.email = email)).map Versioned.row

def userById (i : Nat) (id : String) : Option User :=
  (w.users.find? fun v => v.visible i && decide (v.row.id = id)).map Versioned.row

def providerAccount (i : Nat) (providerUserId : String) : Option ProviderAccount :=
  (w.providerAccounts.find? fun v =>
    v.visible i && decide (v.row.providerUserId = providerUserId)).map Versioned.row

/-- `LinksService.insertLinkWithOutbox` inside its transaction. The row is invisible to others
until the commit, so the whole transaction is one step. A fault at statement 0 fails the link's
INSERT; one at statement 1 is an outbox id that is taken, a unique violation as well; a later one
fails the outbox INSERT, the SELECT or the COMMIT. Nothing is kept of a transaction that failed. -/
def insertLinkWithOutbox (fault : Option Nat) (fields : LinkFields) :
    Except AppError (Link × World) :=
  let link : Link :=
    ⟨fields.shortUrl, fields.originalUrl, fields.userId, w.now, fields.expiresAt⟩
  if fault = some 0 then .error .queryFailed
  else match w.links.insert? link with
    | none => .error .uniqueViolation
    | some links =>
      let outbox : Outbox := ⟨"link_created", fields.shortUrl.1, fields.originalUrl⟩
      if fault = some 1 then .error .uniqueViolation
      else if fault.isSome then .error .queryFailed
      else match links.byKey Link.slugKey (bpchar fields.shortUrl.1) with
        | some found => .ok (found, { w with links := links, outbox := outbox :: w.outbox })
        | none => .error .entityNotFound

def setOriginalUrl (slug userId originalUrl : String) : LinkTable :=
  w.links.update (fun l => decide (l.slugKey = bpchar slug) && decide (l.userId = userId))
    (fun l => { l with originalUrl := originalUrl }) (by simp [Link.slugKey])

def touchedKeys (p : ApiKey → Bool) (f : ApiKey → ApiKey) (kept : ∀ v, (f v).id = v.id) :
    ApiKeyTable := w.apiKeys.update p f (by simpa using kept)

/-- A possible answer of the unordered, capped query for expired links. -/
def isExpiredBatch (now take : Nat) (batch : List Link) : Bool :=
  let expired := w.links.rows.filter fun l => l.expiresAt.any fun x => decide (x < (now : Int))
  decide (batch.Nodup ∧ (∀ l ∈ batch, l ∈ expired) ∧ batch.length = min take expired.length)

end World

/-- A word `SlugGeneratorService.generate` can return. -/
def asSlug (s : String) : Option Char6 :=
  if size : s.length = SLUG_LENGTH then
    if s.toList.all fun c => decide (c ∈ ALPHABET.toList) then some ⟨s, size⟩ else none
  else none

/-- A secret `randomBytes(32).toString('base64url')` can return: the last of its 43 digits has only
four of the 256 bits, so it is one of 16. -/
def isSecret (s : String) : Bool :=
  decide (s.length = 43) && (s.toList.all fun c =>
    c.isAlphanum || decide (c = '-') || decide (c = '_')) &&
    s.toList.getLast?.any fun c => decide (c ∈ "AEIMQUYcgkosw048".toList)

/-- A state token `randomBytes(32).toString('hex')` can return. -/
def isHexToken (s : String) : Bool :=
  decide (s.length = 64) && s.toList.all fun c =>
    c.isDigit || decide (c ∈ ['a', 'b', 'c', 'd', 'e', 'f'])

/-! ### Execution -/

variable (P : Platform)

/-- One command of client `i`, which is also the id of its transaction. -/
@[irreducible] def exec (i : Nat) : (c : Cmd) → Choice → World → Outcome c
  | .dateNow, _, w => some (.ok w.now, w)
  | .randomUUID, ch, w =>
    match w.drawFresh ch.draw with
    | none => none
    | some w' => some (.ok ch.draw, w')
  | .randomSecret, ch, w =>
    if isSecret ch.draw then
      match w.drawFresh ch.draw with
      | none => none
      | some w' => some (.ok ch.draw, w')
    else none
  | .randomState, ch, w =>
    if isHexToken ch.draw then
      match w.drawFresh ch.draw with
      | none => none
      | some w' => some (.ok ch.draw, w')
    else none
  | .generateSlug, ch, w =>
    match asSlug ch.draw with
    | none => none
    | some slug => some (.ok slug, w)
  | .bcryptHash password, ch, w => some (.ok (P.bcryptHash password ch.draw), w)
  | .sign secret payload expiresIn, _, w =>
    -- whole seconds, like the comparison with `exp`
    let iat := w.now / 1000
    let token : Jwt := ⟨secret, payload, iat, iat + expiresIn⟩
    some (.ok token, { w with signed := token :: w.signed })
  | .verify _ (.other _), _, w => some (.error .jwtInvalid, w)
  | .verify secret (.jwt t), _, w =>
    if t.secret = secret ∧ w.now / 1000 < t.exp then some (.ok t.payload, w)
    else some (.error .jwtInvalid, w)
  | .redisGet key, ch, w =>
    if ch.fault.isSome then some (.error .redis, w) else some (.ok (w.redis.get w.now key), w)
  | .redisSet key value ex, ch, w =>
    if ch.fault.isSome then some (.error .redis, w)
    else some (.ok (), { w with redis := w.redis.set w.now key value ex })
  | .redisDel key, ch, w =>
    if ch.fault.isSome then some (.error .redis, w)
    else some (.ok (), { w with redis := w.redis.del key })
  | .redisGetDel key, ch, w =>
    if ch.fault.isSome then some (.error .redis, w)
    else some (.ok (w.redis.get w.now key), { w with redis := w.redis.del key })
  | .commit, ch, w =>
    -- a COMMIT that fails rolls back
    if ch.fault.isSome then some (.error .queryFailed, w.rollback i) else some (.ok (), w.commit i)
  | .rollback, _, w => some (.ok (), w.rollback i)
  | .findUserByEmail email, ch, w =>
    if ch.fault.isSome then some (.error .queryFailed, w) else some (.ok (w.userByEmail i email), w)
  | .findUserById id, ch, w =>
    if ch.fault.isSome then some (.error .queryFailed, w) else some (.ok (w.userById i id), w)
  | .insertUser email passwordHash, ch, w =>
    let user : User := ⟨ch.draw, email, passwordHash, none, none, w.now⟩
    if ch.fault.isSome then some (.error .queryFailed, w)
    else match w.drawFresh ch.draw with
      | none => none
      | some w' =>
        match World.insertVersioned w.users i user with
        | none => none
        | some (.error e) => some (.error e, w')
        | some (.ok users) => some (.ok user, { w' with users := users })
  | .findProviderAccount providerUserId, ch, w =>
    if ch.fault.isSome then some (.error .queryFailed, w)
    else some (.ok (w.providerAccount i providerUserId), w)
  | .saveProviderAccount providerUserId userId, ch, w =>
    let account : ProviderAccount := ⟨ch.draw, providerUserId, userId⟩
    if ch.fault.isSome then some (.error .queryFailed, w)
    else match w.drawFresh ch.draw with
      | none => none
      | some w' =>
        match World.insertVersioned w.providerAccounts i account with
        | none => none
        | some (.error e) => some (.error e, w')
        | some (.ok accounts) => some (.ok account, { w' with providerAccounts := accounts })
  | .findLink slug, ch, w =>
    if ch.fault.isSome then some (.error .queryFailed, w) else some (.ok (w.link? slug), w)
  | .insertLinkWithOutbox fields, ch, w =>
    match w.insertLinkWithOutbox ch.fault fields with
    | .error e => some (.error e, w)
    | .ok (link, w') => some (.ok link, w')
  | .updateLink slug userId originalUrl, ch, w =>
    if ch.fault.isSome then some (.error .queryFailed, w)
    else
      let hit := fun l : Link => decide (l.slugKey = bpchar slug) && decide (l.userId = userId)
      some (.ok (w.links.count hit), { w with links := w.setOriginalUrl slug userId originalUrl })
  | .deleteLink slug, ch, w =>
    if ch.fault.isSome then some (.error .queryFailed, w)
    else
      let hit := fun l : Link => decide (l.slugKey = bpchar slug)
      some (.ok (w.links.count hit), { w with links := w.links.delete hit })
  | .findExpiredLinks now take, ch, w =>
    if ch.fault.isSome then some (.error .queryFailed, w)
    -- any batch of the right size may come back
    else if w.isExpiredBatch now take ch.batch then some (.ok ch.batch, w) else none
  | .countLinks userId monthStart nextMonthStart, ch, w =>
    if ch.fault.isSome then some (.error .queryFailed, w)
    else some (.ok (w.links.count fun l => l.createdBy userId monthStart nextMonthStart), w)
  | .countKeys userId monthStart nextMonthStart, ch, w =>
    if ch.fault.isSome then some (.error .queryFailed, w)
    else some (.ok (w.apiKeys.count fun k => k.createdBy userId monthStart nextMonthStart), w)
  | .saveApiKey userId label keyHash keyPrefix, ch, w =>
    let key : ApiKey := ⟨ch.draw, userId, label, keyHash, keyPrefix, w.now, none, none⟩
    if ch.fault.isSome then some (.error .queryFailed, w)
    else match w.drawFresh ch.draw with
      | none => none
      | some w' =>
        match w.apiKeys.insert? key with
        | none => some (.error .uniqueViolation, w')
        | some keys => some (.ok key, { w' with apiKeys := keys })
  | .revokeApiKey id userId now, ch, w =>
    if ch.fault.isSome then some (.error .queryFailed, w)
    else
      let hit := fun k : ApiKey =>
        decide (k.id = id) && decide (k.userId = userId) && decide (k.revokedAt = none)
      some (.ok (w.apiKeys.count hit), { w with
        apiKeys := w.touchedKeys hit (fun k => { k with revokedAt := some now }) fun _ => rfl })
  | .findLiveApiKey keyPrefix, ch, w =>
    let hit := fun k : ApiKey =>
      decide (bpchar k.keyPrefix = bpchar keyPrefix) && decide (k.revokedAt = none)
    if ch.fault.isSome then some (.error .queryFailed, w)
    -- without an order, any live row with the prefix may come back
    else match ch.pick with
      | some k => if k ∈ w.apiKeys.rows ∧ hit k then some (.ok (some k), w) else none
      | none => if w.apiKeys.rows.any hit then none else some (.ok none, w)
  | .touchApiKey id now, ch, w =>
    if ch.fault.isSome then some (.error .queryFailed, w)
    else
      let hit := fun k : ApiKey => decide (k.id = id)
      some (.ok (), { w with
        apiKeys := w.touchedKeys hit (fun k => { k with lastUsedAt := some now }) fun _ => rfl })
  | .listApiKeys userId, ch, w =>
    if ch.fault.isSome then some (.error .queryFailed, w)
    else
      let own := w.apiKeys.rows.filter fun k => decide (k.userId = userId)
      some (.ok (own.mergeSort fun a b => decide (b.createdAt ≤ a.createdAt)), w)

abbrev machine : Machine api := ⟨World, Choice, exec P⟩

/-- The environment's only move: the clock advances. -/
def World.advance (ms : Nat) (w : World) : World := { w with now := w.now + ms }

end Mikrouli
