import Mikrouli.Model.Addresses
import Mikrouli.Model.Guards

/-! The authorities of the Host, Origin and Referer headers, and what the URL parser makes of the host
of one: a name, an IPv4 address of four decimals, or an IPv6 literal. The other spellings that the URL
standard reads as IPv4 addresses (`127.1`, `2130706433`) and origins of other schemes than http and
https are left out. -/

namespace Mikrouli

/-! ### IPv6 literals -/

def isHexDigit (c : Char) : Bool :=
  decide ('0' ≤ c ∧ c ≤ '9') || decide ('a' ≤ c ∧ c ≤ 'f') || decide ('A' ≤ c ∧ c ≤ 'F')

def hexDigitValue (c : Char) : Nat :=
  if c ≤ '9' then c.toNat - '0'.toNat
  else if c ≤ 'F' then c.toNat - 'A'.toNat + 10
  else c.toNat - 'a'.toNat + 10

namespace IPv6

def readHex (s : List Char) : Option Nat :=
  if 0 < s.length ∧ s.length ≤ 4 ∧ s.all isHexDigit then
    some (s.foldl (fun n c => 16 * n + hexDigitValue c) 0)
  else none

/-- A decimal of an IPv4 address, without leading zeros. -/
def readOctet (s : List Char) : Option Nat :=
  if s ≠ [] ∧ s.all Char.isDigit ∧ (s.head? = some '0' → s.length = 1) then
    let n := s.foldl (fun n c => 10 * n + hexDigitValue c) 0
    if n < 256 then some n else none
  else none

/-- An IPv4 address, as the last two pieces. -/
def readDotted (s : List Char) : Option (List Nat) :=
  match (s.splitOn '.').mapM readOctet with
  | some [a, b, c, d] => some [256 * a + b, 256 * c + d]
  | _ => none

def readPieces (atEnd : Bool) : List (List Char) → Option (List Nat)
  | [] => some []
  | [last] =>
    match readHex last with
    | some piece => some [piece]
    | none => if atEnd then readDotted last else none
  | s :: rest => do
    let piece ← readHex s
    let pieces ← readPieces atEnd rest
    pure (piece :: pieces)

def readSide (atEnd : Bool) (s : List Char) : Option (List Nat) :=
  if s = [] then some [] else readPieces atEnd (s.splitOn ':')

/-- What is before and after the two colons. -/
def splitCompress : List Char → Option (List Char × List Char)
  | [] => none
  | c :: rest =>
    if c = ':' ∧ rest.head? = some ':' then some ([], rest.tail)
    else (splitCompress rest).map fun (left, right) => (c :: left, right)

def ofPieces : List Nat → Option IPv6
  | [a, b, c, d, e, f, g, h] =>
    some ⟨Fin.ofNat _ a, Fin.ofNat _ b, Fin.ofNat _ c, Fin.ofNat _ d, Fin.ofNat _ e, Fin.ofNat _ f,
      Fin.ofNat _ g, Fin.ofNat _ h⟩
  | _ => none

def isLiteralChar (c : Char) : Bool := isHexDigit c || decide (c = ':') || decide (c = '.')

/-- The IPv6 parser of the URL standard. -/
def read (s : List Char) : Option IPv6 :=
  if s.all isLiteralChar = false then none
  else
    match splitCompress s with
    | none => (readSide true s).bind ofPieces
    | some (left, right) => do
      let left ← readSide false left
      let right ← readSide true right
      -- the two colons stand for one zero at least
      if left.length + right.length ≤ 7 then
        ofPieces (left ++ List.replicate (8 - left.length - right.length) 0 ++ right)
      else none

end IPv6

example : IPv6.read "::1".toList = some ⟨0, 0, 0, 0, 0, 0, 0, 1⟩ := by decide +kernel

example : IPv6.read "2001:DB8::192.0.2.33".toList =
    some ⟨0x2001, 0xdb8, 0, 0, 0, 0, 0xc000, 0x221⟩ := by decide +kernel

/-! ### Authorities -/

def isNameChar (c : Char) : Bool := c.isAlphanum || ['-', '.', '_'].contains c

/-- The last label is a number: the parser would take the name for an IPv4 address. -/
def endsInNumber (s : List Char) : Bool :=
  let labels := s.splitOn '.'
  let labels := if labels.getLast? = some [] then labels.dropLast else labels
  labels.getLast?.any fun label =>
    label ≠ [] && label.all Char.isDigit ||
      ["0x".toList, "0X".toList].any fun sign =>
        sign.isPrefixOf label && (label.drop 2).all isHexDigit

def isHostName (s : List Char) : Bool :=
  decide (s ≠ []) && s.all isNameChar && !endsInNumber s

/-- ASCII letters in lower case. -/
def lower (s : List Char) : List Char := s.map Char.toLower

/-- A host as it is written: a name in any letter case, an IPv4 address or any literal of an IPv6
address. -/
inductive HostText where
  | name (s : List Char) (valid : isHostName s = true)
  | ipv4 (address : IPv4)
  | ipv6 (s : List Char) (address : IPv6) (valid : IPv6.read s = some address)

namespace HostText

def text : HostText → List Char
  | .name s _ => s
  | .ipv4 address => address.serialize.toList
  | .ipv6 s _ _ => '[' :: s ++ [']']

def host : HostText → Host
  | .name s _ => .domain (String.ofList (lower s))
  | .ipv4 address => .ipv4 address
  | .ipv6 _ address _ => .ipv6 address

end HostText

structure Authority where
  host : HostText
  /-- none without a colon -/
  port : Option (List Char)
  valid : ∀ digits ∈ port, digits.all Char.isDigit = true

namespace Authority

def text (a : Authority) : List Char :=
  a.host.text ++ (a.port.map fun digits => ':' :: digits).getD []

/-- The host name, as the URL standard writes it. -/
def hostname (a : Authority) : String := a.host.host.hostname

end Authority

inductive Scheme where
  | http
  | https
  deriving DecidableEq, Repr

namespace Scheme

def text : Scheme → List Char
  | .http => "http".toList
  | .https => "https".toList

def defaultPort : Scheme → Nat
  | .http => 80
  | .https => 443

end Scheme

/-- The port of a request to this authority. -/
def Authority.portOn (scheme : Scheme) (a : Authority) : Nat :=
  match a.port with
  | some (d :: digits) => (d :: digits).foldl (fun n c => 10 * n + hexDigitValue c) 0
  | _ => scheme.defaultPort

/-- A url with an authority: its scheme in any letter case, and whatever follows the authority. -/
structure HttpUrl where
  scheme : Scheme
  schemeText : List Char
  authority : Authority
  rest : List Char
  spelled : lower schemeText = scheme.text
  bounded : ∀ c ∈ rest.head?, c = '/' ∨ c = '?' ∨ c = '#'

def HttpUrl.text (u : HttpUrl) : String :=
  .ofList (u.schemeText ++ "://".toList ++ u.authority.text ++ u.rest)

/-- What the guard relies on: the parser, where it accepts a url with an authority, gives its host
name, and where it gives a name in brackets it is an IPv6 address, which has colons. -/
structure ReadsHosts (urlHostname : String → Option String) : Prop where
  hostname : ∀ (u : HttpUrl) h, urlHostname u.text = some h → h = u.authority.hostname
  bracketed : ∀ url h, urlHostname url = some h → h.toList.head? = some '[' → ':' ∈ h.toList

end Mikrouli
