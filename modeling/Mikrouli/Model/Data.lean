import Mathlib.Data.List.DropRight
import Mikrouli.Lib.Table

/-! Entities, errors and constants of the API, and the platform it runs on. -/

namespace Mikrouli

/-! ### Constants -/

/-- `common/constants.ts` -/
def GLOBAL_LINK_LIMIT : Int := 100
def GLOBAL_KEY_LIMIT : Int := 10
def RETENTION_MS : Int := 94608000000
def GUEST_SENTINEL_EMAIL : String := "guest@mikrouli.local"

/-- `links/slug-generator.service.ts` -/
def ALPHABET : String := "0123456789abcdefghijklmnopqrstuvwxyzABCDEFGHJKLMNPQRSTUVWXYZ_"
def SLUG_LENGTH : Nat := 6

/-! ### Entities

Columns that no modelled function reads are left out. Instants are milliseconds
since 1970; the clock is a natural number, an explicit expiry may lie in the past.
A UUID stands for its value: two spellings of one are one string here. -/

structure User where
  id : String
  email : String
  passwordHash : Option String
  monthlyLinkLimit : Option Int
  monthlyKeyLimit : Option Int
  createdAt : Nat
  deriving DecidableEq, Repr

/-- The provider column always holds `github`. -/
structure ProviderAccount where
  id : String
  providerUserId : String
  userId : String
  deriving DecidableEq, Repr

/-- A `CHAR(6)` value: always six characters. -/
abbrev Char6 := { s : String // s.length = SLUG_LENGTH }

structure Link where
  shortUrl : Char6
  originalUrl : String
  userId : String
  createdAt : Nat
  expiresAt : Option Int
  deriving DecidableEq, Repr

structure Outbox where
  aggregateType : String
  slug : String
  originalUrl : String
  deriving DecidableEq, Repr

structure ApiKey where
  id : String
  userId : String
  label : String
  keyHash : String
  keyPrefix : String
  createdAt : Nat
  lastUsedAt : Option Nat
  revokedAt : Option Nat
  deriving DecidableEq, Repr

/-- A row with the transaction that inserted it and has not committed yet. -/
structure Versioned (V : Type) where
  row : V
  tx : Option Nat
  deriving DecidableEq, Repr

/-- What transaction `i` sees under READ COMMITTED: committed rows and its own. -/
def Versioned.visible {V : Type} (v : Versioned V) (i : Nat) : Bool :=
  decide (v.tx = none) || decide (v.tx = some i)

/-- CHAR columns compare blank-padded: trailing blanks do not count. -/
def bpchar (s : String) : String := String.ofList (s.toList.rdropWhile (· = ' '))

theorem exists_eq_rdropWhile_append (l : List Char) :
    ∃ n, l = l.rdropWhile (· = ' ') ++ List.replicate n ' ' := by
  induction l using List.reverseRecOn with
  | nil => exact ⟨0, rfl⟩
  | append_singleton l c ih =>
    rw [List.rdropWhile_concat]
    by_cases blank : c = ' '
    · obtain ⟨n, eq⟩ := ih
      refine ⟨n + 1, ?_⟩
      subst blank
      simp only [decide_true, ↓reduceIte]
      rw [List.replicate_succ', ← List.append_assoc, ← eq]
    · exact ⟨0, by simp [blank]⟩

/-- Among strings of one length the padded comparison is equality. -/
theorem bpchar_inj {s t : String} (size : s.length = t.length) (same : bpchar s = bpchar t) :
    s = t := by
  have trimmed := congrArg String.toList same
  simp only [bpchar, String.toList_ofList] at trimmed
  obtain ⟨n, hs⟩ := exists_eq_rdropWhile_append s.toList
  obtain ⟨m, ht⟩ := exists_eq_rdropWhile_append t.toList
  rw [← String.length_toList, ← String.length_toList, hs, ht, trimmed] at size
  simp only [List.length_append, List.length_replicate, Nat.add_left_cancel_iff] at size
  rw [← String.toList_inj, hs, ht, trimmed, size]

def Link.slugKey (l : Link) : String := bpchar l.shortUrl.1

/-- The row counts towards what the user created from `monthStart` to before `nextMonthStart`. -/
def Link.createdBy (l : Link) (userId : String) (monthStart nextMonthStart : Int) : Bool :=
  decide (l.userId = userId) && decide (monthStart ≤ l.createdAt) &&
    decide ((l.createdAt : Int) < nextMonthStart)

def ApiKey.createdBy (k : ApiKey) (userId : String) (monthStart nextMonthStart : Int) : Bool :=
  decide (k.userId = userId) && decide (monthStart ≤ k.createdAt) &&
    decide ((k.createdAt : Int) < nextMonthStart)

abbrev userKeys : List (Versioned User → String) := [fun v => v.row.id, fun v => v.row.email]

abbrev providerKeys : List (Versioned ProviderAccount → String) :=
  [fun v => v.row.id, fun v => v.row.providerUserId, fun v => v.row.userId]

abbrev UserTable := Store.Table (Versioned User) userKeys
abbrev ProviderTable := Store.Table (Versioned ProviderAccount) providerKeys
abbrev LinkTable := Store.Table Link [Link.slugKey]
abbrev ApiKeyTable := Store.Table ApiKey [ApiKey.id]

/-! ### Tokens -/

structure JwtPayload where
  sub : String
  email : String
  type : Option String
  jti : Option String
  family : Option String
  deriving DecidableEq, Repr

/-- A token signed with HS256: the secret it was signed with and what it says.
`exp` is in seconds. -/
structure Jwt where
  secret : String
  payload : JwtPayload
  iat : Nat
  exp : Nat
  deriving DecidableEq, Repr

/-- What a client may present as a token: a well-formed JWT, or any other string. -/
inductive Token where
  | jwt (t : Jwt)
  | other (s : String)
  deriving DecidableEq, Repr

structure TokenPair where
  accessToken : Jwt
  refreshToken : Jwt
  deriving DecidableEq, Repr

structure GithubIdentity where
  providerUserId : String
  email : String
  deriving DecidableEq, Repr

/-! ### Errors -/

/-- The payload of a `kind: 'problem'` exception. -/
structure Problem where
  typeSlug : String
  title : String
  detail : String
  status : Nat
  deriving DecidableEq, Repr

inductive AppError where
  | unauthorized
  | forbidden
  | notFound (message : String)
  | conflict (message : String)
  | serviceUnavailable (message : String)
  | problem (p : Problem)
  /-- a failed statement with Postgres code 23505 -/
  | uniqueViolation
  /-- any other failed statement -/
  | queryFailed
  | entityNotFound
  | redis
  | jwtInvalid
  deriving DecidableEq, Repr

def MonthlyLinkLimitExceededError : AppError := .problem {
  typeSlug := "monthly-link-limit-exceeded"
  title := "Monthly link limit reached"
  detail := "You have reached your monthly short-link creation limit. Please try again next month or contact support to increase your allowance."
  status := 429 }

def MonthlyKeyLimitExceededError : AppError := .problem {
  typeSlug := "monthly-key-limit-exceeded"
  title := "Monthly API key limit reached"
  detail := "You have reached your monthly API key creation limit. Please try again next month or contact support to increase your allowance."
  status := 429 }

def isUniqueViolation : AppError → Bool
  | .uniqueViolation => true
  | _ => false

/-! ### Platform -/

/-- What the code takes from its runtime and its environment variables. -/
structure Platform where
  /-- `new URL(s).protocol`, none when the constructor throws -/
  urlProtocol : String → Option String
  /-- `Number(raw)` where it is an integer -/
  numberInteger : String → Option Int
  /-- bcrypt with an explicit salt -/
  bcryptHash : String → String → String
  bcryptCompare : String → String → Bool
  jwtSecret : String
  jwtRefreshSecret : String
  monthlyLinkLimit : Option String
  monthlyKeyLimit : Option String

/-- What bcrypt reads of a password: the first 72 bytes of its UTF-8 encoding. -/
def bcryptInput (password : String) : List UInt8 := password.toUTF8.toList.take 72

/-- One character for each byte, none of them a `$`. -/
def bcryptDigest (password : String) : List Char :=
  (bcryptInput password).map fun b => Char.ofNat (256 + b.toNat)

/-- A platform simple enough to compute with. -/
def Platform.plain : Platform where
  urlProtocol url :=
    if "https://".toList.isPrefixOf url.toList then some "https:"
    else if "http://".toList.isPrefixOf url.toList then some "http:" else none
  numberInteger _ := none
  bcryptHash password salt := String.ofList (bcryptDigest password ++ '$' :: salt.toList)
  bcryptCompare password passwordHash :=
    decide (passwordHash.toList.takeWhile (· ≠ '$') = bcryptDigest password)
  jwtSecret := "access secret"
  jwtRefreshSecret := "refresh secret"
  monthlyLinkLimit := none
  monthlyKeyLimit := none

theorem toNat_digestChar (b : UInt8) : (Char.ofNat (256 + b.toNat)).toNat = 256 + b.toNat := by
  have bound := b.toNat_lt
  have valid : (256 + b.toNat).isValidChar := .inl (by omega)
  rw [Char.ofNat, dif_pos valid]
  rfl

theorem bcryptDigest_inj {password stored : String}
    (same : bcryptDigest stored = bcryptDigest password) :
    bcryptInput stored = bcryptInput password := by
  refine List.map_injective_iff.mpr (fun a b equal => ?_) same
  have codes := congrArg Char.toNat equal
  rw [toNat_digestChar, toNat_digestChar] at codes
  exact UInt8.toNat_inj.mp (by omega)

theorem toList_loop (bytes : ByteArray) (i : Nat) (done : List UInt8) :
    ByteArray.toList.loop bytes i done = done.reverse ++ bytes.data.toList.drop i := by
  fun_induction ByteArray.toList.loop bytes i done with
  | case1 i done below ih =>
    have inside : i < bytes.data.toList.length := by simpa using below
    rw [ih, List.drop_eq_getElem_cons inside, List.reverse_cons, List.append_assoc]
    congr 2
    simp only [ByteArray.get!, List.singleton_append, Array.getElem_toList]
    congr 1
    exact getElem!_pos bytes.data i below
  | case2 i done beyond =>
    have outside : bytes.data.toList.length ≤ i := by simpa using beyond
    rw [List.drop_eq_nil_of_le outside, List.append_nil]

theorem toList_bytes (bytes : ByteArray) : bytes.toList = bytes.data.toList :=
  toList_loop bytes 0 []

/-- Of a password shorter than 72 bytes bcrypt reads the whole. -/
theorem eq_of_bcryptInput {stored password : String} (short : stored.utf8ByteSize < 72)
    (same : bcryptInput stored = bcryptInput password) : password = stored := by
  have size : stored.toByteArray.data.toList.length < 72 := by
    rw [Array.length_toList]
    exact short
  simp only [bcryptInput, toList_bytes, String.toUTF8_eq_toByteArray] at same
  rw [List.take_of_length_le (by omega)] at same
  have whole : password.toByteArray.data.toList.length ≤ 72 := by
    have lengths := congrArg List.length same
    rw [List.length_take] at lengths
    omega
  rw [List.take_of_length_le whole] at same
  apply String.toByteArray_inj.mp
  apply ByteArray.ext
  exact Array.toList_inj.mp same.symm

/-- The simple platform compares as bcrypt does: what it reads of both passwords is the same. -/
theorem Platform.plain_bcryptCompare (password stored salt : String)
    (matched : Platform.plain.bcryptCompare password
      (Platform.plain.bcryptHash stored salt) = true) :
    bcryptInput stored = bcryptInput password := by
  have digest : ∀ c ∈ bcryptDigest stored, decide (c ≠ '$') = true := by
    intro c member
    obtain ⟨b, -, rfl⟩ := List.mem_map.mp member
    refine decide_eq_true fun dollar => ?_
    have code := toNat_digestChar b
    rw [dollar] at code
    have small : '$'.toNat = 36 := rfl
    omega
  simp only [Platform.plain, String.toList_ofList, decide_eq_true_eq] at matched
  rw [List.takeWhile_append_of_pos digest, List.takeWhile_cons_of_neg (by simp),
    List.append_nil] at matched
  exact bcryptDigest_inj matched

end Mikrouli
