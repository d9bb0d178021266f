import Mikrouli.Model.Validation

/-! Literal addresses: the ranges of ipaddr.js 1.9.1, and the hosts of parsed URLs. -/

namespace Mikrouli

/-! ### Subnets -/

/-- `matchCIDR`: the first `cidrBits` bits agree, part by part. -/
def matchCIDR (partSize : Nat) : (first second : List Nat) → (cidrBits : Nat) → Bool
  | x :: first, y :: second, cidrBits =>
    if cidrBits = 0 then true
    else
      -- where more bits remain than the part has, the whole part is compared
      let shift := partSize - cidrBits
      decide (x >>> shift = y >>> shift) && matchCIDR partSize first second (cidrBits - partSize)
  | _, _, _ => true

/-- The name of the first range one of whose subnets matches. -/
def subnetMatch (partSize : Nat) (parts : List Nat)
    (rangeList : List (String × List (List Nat × Nat))) : String :=
  match rangeList.find? fun (_, subnets) =>
      subnets.any fun (net, bits) => matchCIDR partSize parts net bits with
  | some (name, _) => name
  | none => "unicast"

structure IPv4 where
  (a b c d : Fin 256)
  deriving DecidableEq, Repr

namespace IPv4

def octets (v : IPv4) : List Nat := [v.a, v.b, v.c, v.d]

def SpecialRanges : List (String × List (List Nat × Nat)) := [
  ("unspecified", [([0, 0, 0, 0], 8)]),
  ("broadcast", [([255, 255, 255, 255], 32)]),
  ("multicast", [([224, 0, 0, 0], 4)]),
  ("linkLocal", [([169, 254, 0, 0], 16)]),
  ("loopback", [([127, 0, 0, 0], 8)]),
  ("carrierGradeNat", [([100, 64, 0, 0], 10)]),
  ("private", [([10, 0, 0, 0], 8), ([172, 16, 0, 0], 12), ([192, 168, 0, 0], 16)]),
  ("reserved", [([192, 0, 0, 0], 24), ([192, 0, 2, 0], 24), ([192, 88, 99, 0], 24),
    ([198, 51, 100, 0], 24), ([203, 0, 113, 0], 24), ([240, 0, 0, 0], 4)])]

def range (v : IPv4) : String := subnetMatch 8 v.octets SpecialRanges

/-- Two pieces of an IPv6 address as an IPv4 address. -/
def ofPieces (high low : Fin 65536) : IPv4 where
  a := ⟨high / 256, by omega⟩
  b := ⟨high % 256, by omega⟩
  c := ⟨low / 256, by omega⟩
  d := ⟨low % 256, by omega⟩

end IPv4

structure IPv6 where
  (p0 p1 p2 p3 p4 p5 p6 p7 : Fin 65536)
  deriving DecidableEq, Repr

instance neZeroPiece : NeZero 65536 := ⟨by decide⟩

namespace IPv6

def parts (v : IPv6) : List Nat := [v.p0, v.p1, v.p2, v.p3, v.p4, v.p5, v.p6, v.p7]

def SpecialRanges : List (String × List (List Nat × Nat)) := [
  ("unspecified", [([0, 0, 0, 0, 0, 0, 0, 0], 128)]),
  ("linkLocal", [([0xfe80, 0, 0, 0, 0, 0, 0, 0], 10)]),
  ("multicast", [([0xff00, 0, 0, 0, 0, 0, 0, 0], 8)]),
  ("loopback", [([0, 0, 0, 0, 0, 0, 0, 1], 128)]),
  ("uniqueLocal", [([0xfc00, 0, 0, 0, 0, 0, 0, 0], 7)]),
  ("ipv4Mapped", [([0, 0, 0, 0, 0, 0xffff, 0, 0], 96)]),
  ("rfc6145", [([0, 0, 0, 0, 0xffff, 0, 0, 0], 96)]),
  ("rfc6052", [([0x64, 0xff9b, 0, 0, 0, 0, 0, 0], 96)]),
  ("6to4", [([0x2002, 0, 0, 0, 0, 0, 0, 0], 16)]),
  ("teredo", [([0x2001, 0, 0, 0, 0, 0, 0, 0], 32)]),
  ("reserved", [([0x2001, 0xdb8, 0, 0, 0, 0, 0, 0], 32)])]

def range (v : IPv6) : String := subnetMatch 16 v.parts SpecialRanges

def isIPv4MappedAddress (v : IPv6) : Bool := decide (v.range = "ipv4Mapped")

def toIPv4Address (v : IPv6) : IPv4 := IPv4.ofPieces v.p6 v.p7

end IPv6

/-- What `ipaddr.parse` makes of an address. -/
def IPv4.parsed (v : IPv4) : IpAddress := .ipv4 v.range

def IPv6.parsed (v : IPv6) : IpAddress :=
  .ipv6 v.range (if v.isIPv4MappedAddress then some v.toIPv4Address.range else none)

/-! ### Hosts -/

/-- The IPv4 serializer of the URL standard. -/
def IPv4.serialize (v : IPv4) : String :=
  toString v.a.val ++ "." ++ toString v.b.val ++ "." ++ toString v.c.val ++ "." ++ toString v.d.val

namespace IPv6

def hex (piece : Nat) : String := String.ofList (Nat.toDigits 16 piece)

/-- How many zero pieces follow from each position on. -/
def zeroRuns (pieces : List Nat) : List Nat :=
  (List.range pieces.length).map fun i => ((pieces.drop i).takeWhile (· = 0)).length

/-- The IPv6 serializer of the URL standard: the first longest run of zeros, if longer than one
piece, is written as two colons. -/
def serialize (v : IPv6) : String :=
  let runs := zeroRuns v.parts
  let longest := runs.foldl max 0
  let text := fun pieces : List Nat => String.intercalate ":" (pieces.map hex)
  if longest ≤ 1 then text v.parts
  else
    -- `idxOf` finds the first of the longest runs
    let compress := runs.idxOf longest
    text (v.parts.take compress) ++ "::" ++ text (v.parts.drop (compress + longest))

end IPv6

example : (⟨0, 0, 0, 0, 0, 0xffff, 0x7f00, 1⟩ : IPv6).serialize = "::ffff:7f00:1" := by decide

/-- The host of a parsed http(s) URL. -/
inductive Host where
  | ipv4 (address : IPv4)
  | ipv6 (address : IPv6)
  | domain (name : String)

/-- `hostname`, as the URL standard serializes it, whatever notation the host was written in. -/
def Host.hostname : Host → String
  | .ipv4 address => address.serialize
  | .ipv6 address => "[" ++ address.serialize ++ "]"
  | .domain name => name

/-- Of this url the runtime reads this host, and ipaddr.js knows a literal for the address it
is. -/
structure Reads (V : Validators) (url : String) (host : Host) : Prop where
  hostname : V.urlHostname url = host.hostname
  ipv4 : ∀ v, host = .ipv4 v →
    V.ipaddrIsValid v.serialize = true ∧ V.ipaddrParse v.serialize = some v.parsed
  ipv6 : ∀ v, host = .ipv6 v →
    V.ipaddrIsValid v.serialize = true ∧ V.ipaddrParse v.serialize = some v.parsed

end Mikrouli
