import Mikrouli.Model.Guards
import Mikrouli.Model.JwtStrategy

/-! `auth/jwt-auth.guard.ts`, which runs the strategy of `auth/jwt.strategy.ts` on a request.
`passport-jwt` is a parameter: how it reads a bearer token off a header, and what it verifies. -/

namespace Mikrouli

/-- What `\s` stands for in a regular expression. -/
def isWhiteSpace (c : Char) : Bool :=
  decide (c ∈ ['\t', '\n', '\x0b', '\x0c', '\r', ' ', '\u00a0', '\u1680', '\u2028', '\u2029', '\u202f',
    '\u205f', '\u3000', '\ufeff']) || (decide ('\u2000' ≤ c) && decide (c ≤ '\u200a'))

/-- A text without white space, and one that is nothing else: neither is empty. -/
def isWord (s : String) : Bool := decide (s ≠ "") && s.toList.all fun c => !isWhiteSpace c

def isGap (s : String) : Bool := decide (s ≠ "") && s.toList.all isWhiteSpace

structure PassportJwt where
  fromAuthHeaderAsBearerToken : String → Option String
  /-- the payload of a token that is signed with `JWT_SECRET` and has not expired -/
  verify : String → Option JwtPayload
  /-- the scheme may be in any case, and any white space may follow it -/
  bearer : ∀ scheme space token, isWord scheme = true → isGap space = true → isWord token = true →
    scheme.toLower = "bearer" → fromAuthHeaderAsBearerToken (scheme ++ space ++ token) = some token

namespace JwtStrategy

def cookieExtractor (req : HttpRequest) : Option JsValue := req.cookie? ACCESS_COOKIE_NAME

def bearerExtractor (passport : PassportJwt) (req : HttpRequest) : Option JsValue :=
  match req.header "authorization" with
  | some (.one s) => (passport.fromAuthHeaderAsBearerToken s).map .string
  | _ => none

/-- The extractors in their order, as far as the first that gives something. -/
def jwtFromRequest (passport : PassportJwt) (req : HttpRequest) : Option JsValue :=
  ((cookieExtractor req).filter JsValue.truthy).or
    ((bearerExtractor passport req).filter JsValue.truthy)

end JwtStrategy

namespace JwtAuthGuard

def canActivate (passport : PassportJwt) (req : HttpRequest) :
    Except Exception JwtStrategy.RequestUser :=
  match JwtStrategy.jwtFromRequest passport req with
  | some (.string token) =>
    match passport.verify token with
    | none => .error UnauthorizedException
    | some payload =>
      match JwtStrategy.validate payload with
      | .done user => .ok user
      | _ => .error UnauthorizedException
  -- there is no token, or the cookie is not a text
  | _ => .error UnauthorizedException

end JwtAuthGuard

/-- The guards, with `JwtAuthGuard` for the method it is chosen for. -/
def GuardEnv.withPassport (env : GuardEnv) (passport : PassportJwt) : GuardEnv :=
  { env with authenticate := fun method req =>
      match method with
      | .jwt => (JwtAuthGuard.canActivate passport req).map JwtStrategy.RequestUser.id
      | .apiKey => env.authenticate .apiKey req }

/-! ### A passport to compute with -/

/-- The first two words of a header. -/
def parseAuthHeader (s : String) : Option (String × String) :=
  let text := s.toList.dropWhile isWhiteSpace
  let rest := (text.dropWhile fun c => !isWhiteSpace c).dropWhile isWhiteSpace
  let value := rest.takeWhile fun c => !isWhiteSpace c
  if value = [] then none
  else some (String.ofList (text.takeWhile fun c => !isWhiteSpace c), String.ofList value)

/-- White space ends where a word begins. -/
theorem dropWhile_word {word : List Char} (rest : List Char) (some : word ≠ [])
    (letters : ∀ c ∈ word, (!isWhiteSpace c) = true) :
    (word ++ rest).dropWhile isWhiteSpace = word ++ rest := by
  obtain ⟨c, cs, rfl⟩ := List.exists_cons_of_ne_nil some
  have first := letters c List.mem_cons_self
  rw [Bool.not_eq_true'] at first
  rw [List.cons_append, List.dropWhile_cons_of_neg (by simp [first])]

theorem takeWhile_gap {gap : List Char} (rest : List Char) (some : gap ≠ [])
    (blank : ∀ c ∈ gap, isWhiteSpace c = true) :
    (gap ++ rest).takeWhile (fun c => !isWhiteSpace c) = [] ∧
      (gap ++ rest).dropWhile (fun c => !isWhiteSpace c) = gap ++ rest := by
  obtain ⟨c, cs, rfl⟩ := List.exists_cons_of_ne_nil some
  have first := blank c List.mem_cons_self
  simp [first]

theorem parseAuthHeader_words {scheme space token : String} (first : isWord scheme = true)
    (gap : isGap space = true) (second : isWord token = true) :
    parseAuthHeader (scheme ++ space ++ token) = some (scheme, token) := by
  simp only [isWord, isGap, Bool.and_eq_true, decide_eq_true_eq, List.all_eq_true] at first gap second
  have nonempty {s : String} (some : s ≠ "") : s.toList ≠ [] := by simpa using some
  obtain ⟨taken, dropped⟩ := takeWhile_gap token.toList (nonempty gap.1) gap.2
  have whole : token.toList.takeWhile (fun c => !isWhiteSpace c) = token.toList := by
    rw [List.takeWhile_eq_self_iff]
    exact second.2
  have started := dropWhile_word [] (nonempty second.1) second.2
  rw [List.append_nil] at started
  simp only [parseAuthHeader, String.toList_append, List.append_assoc,
    dropWhile_word _ (nonempty first.1) first.2, List.dropWhile_append_of_pos first.2,
    List.takeWhile_append_of_pos first.2, taken, dropped, List.dropWhile_append_of_pos gap.2, started,
    whole, nonempty second.1, ↓reduceIte, List.append_nil, String.ofList_toList]

/-- Reads headers as `passport-jwt` does and verifies tokens by a table. -/
def PassportJwt.plain (verify : String → Option JwtPayload) : PassportJwt where
  fromAuthHeaderAsBearerToken s := (parseAuthHeader s).bind fun (scheme, value) =>
    if scheme.toLower = "bearer" then some value else none
  verify := verify
  bearer scheme space token first gap second same := by
    rw [parseAuthHeader_words first gap second]
    simp [same]

end Mikrouli
