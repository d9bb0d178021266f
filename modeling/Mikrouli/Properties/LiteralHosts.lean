import Mikrouli.Model.Addresses
import Mikrouli.Properties.Destinations

/-! Which internal addresses a destination can still name by a literal.

Whatever notation it was written in, a literal comes to the check in the one form the URL standard
serializes it to. Written directly, or as an IPv4-mapped address, an internal address is refused.
The other IPv6 literals with an IPv4 address in them are looked up by their own range, so the
address inside is never looked at. -/

namespace Mikrouli

/-! ### Internal addresses -/

/-- A private, loopback, link-local or unspecified address. -/
def IPv4.Internal (v : IPv4) : Prop :=
  v.range ∈ ["private", "loopback", "linkLocal", "unspecified"]

/-- The networks of IPv6 literals with an IPv4 address in them. -/
inductive Embedding where
  | mapped
  | compatible
  | nat64
  | sixToFour
  deriving DecidableEq, Repr

namespace Embedding

def network : Embedding → List Nat × Nat
  | .mapped => ([0, 0, 0, 0, 0, 0xffff, 0, 0], 96)
  | .compatible => ([0, 0, 0, 0, 0, 0, 0, 0], 96)
  | .nat64 => ([0x64, 0xff9b, 0, 0, 0, 0, 0, 0], 96)
  | .sixToFour => ([0x2002, 0, 0, 0, 0, 0, 0, 0], 16)

/-- The IPv4 address in the literal: behind the network. -/
def address (v : IPv6) : Embedding → IPv4
  | .sixToFour => IPv4.ofPieces v.p1 v.p2
  | .mapped | .compatible | .nat64 => IPv4.ofPieces v.p6 v.p7

end Embedding

namespace IPv6

def Within (v : IPv6) (e : Embedding) : Prop :=
  matchCIDR 16 v.parts e.network.1 e.network.2 = true

/-- A loopback, link-local, unique-local or unspecified address. -/
def InternalRange (v : IPv6) : Prop :=
  v.range ∈ ["loopback", "linkLocal", "uniqueLocal", "unspecified"]

/-- The literal denotes an internal address: by itself, or by the IPv4 address in it. -/
def Internal (v : IPv6) : Prop := v.InternalRange ∨ ∃ e, v.Within e ∧ (e.address v).Internal

/-- An internal IPv4 address in a literal that is neither IPv4-mapped nor one of `::` and `::1`. -/
def Hidden (v : IPv6) : Prop :=
  v ≠ ⟨0, 0, 0, 0, 0, 0, 0, 0⟩ ∧ v ≠ ⟨0, 0, 0, 0, 0, 0, 0, 1⟩ ∧
    ∃ e, e ≠ .mapped ∧ v.Within e ∧ (e.address v).Internal

end IPv6

def Host.Internal : Host → Prop
  | .ipv4 v => v.Internal
  | .ipv6 v => v.Internal
  | .domain _ => False

def Host.Hidden : Host → Prop
  | .ipv6 v => v.Hidden
  | .ipv4 _ | .domain _ => False

/-! ### The ranges of the embeddings -/

/-- A name other than the default is the name of a range with a subnet that matches. -/
theorem mem_of_subnetMatch {partSize : Nat} {parts : List Nat} {name : String}
    {rangeList : List (String × List (List Nat × Nat))}
    (named : subnetMatch partSize parts rangeList = name) (special : name ≠ "unicast") :
    ∃ subnets, (name, subnets) ∈ rangeList ∧
      ∃ subnet ∈ subnets, matchCIDR partSize parts subnet.1 subnet.2 = true := by
  unfold subnetMatch at named
  split at named
  next name' subnets found =>
    cases named
    have fits := List.find?_some found
    exact ⟨subnets, List.mem_of_find?_eq_some found, List.any_eq_true.mp fits⟩
  next => exact absurd named.symm special

section Ranges

variable {v : IPv6}

theorem within_mapped : v.Within .mapped ↔ v.p0.val = 0 ∧ v.p1.val = 0 ∧ v.p2.val = 0 ∧
    v.p3.val = 0 ∧ v.p4.val = 0 ∧ v.p5.val = 0xffff := by
  simp [IPv6.Within, Embedding.network, IPv6.parts, matchCIDR]

theorem within_compatible : v.Within .compatible ↔ v.p0.val = 0 ∧ v.p1.val = 0 ∧ v.p2.val = 0 ∧
    v.p3.val = 0 ∧ v.p4.val = 0 ∧ v.p5.val = 0 := by
  simp [IPv6.Within, Embedding.network, IPv6.parts, matchCIDR]

theorem within_nat64 : v.Within .nat64 ↔ v.p0.val = 0x64 ∧ v.p1.val = 0xff9b ∧ v.p2.val = 0 ∧
    v.p3.val = 0 ∧ v.p4.val = 0 ∧ v.p5.val = 0 := by
  simp [IPv6.Within, Embedding.network, IPv6.parts, matchCIDR]

theorem within_sixToFour : v.Within .sixToFour ↔ v.p0.val = 0x2002 := by
  simp [IPv6.Within, Embedding.network, IPv6.parts, matchCIDR]

theorem IPv6.eq_iff {v w : IPv6} : v = w ↔ v.p0.val = w.p0.val ∧ v.p1.val = w.p1.val ∧
    v.p2.val = w.p2.val ∧ v.p3.val = w.p3.val ∧ v.p4.val = w.p4.val ∧ v.p5.val = w.p5.val ∧
    v.p6.val = w.p6.val ∧ v.p7.val = w.p7.val := by
  cases v
  cases w
  simp only [IPv6.mk.injEq, Fin.ext_iff]

/-- The names of the ranges, by the first of their subnets that matches. -/
theorem range_of_mapped (within : v.Within .mapped) : v.range = "ipv4Mapped" := by
  obtain ⟨h0, h1, h2, h3, h4, h5⟩ := within_mapped.mp within
  simp [IPv6.range, subnetMatch, IPv6.SpecialRanges, IPv6.parts, matchCIDR, h0, h1, h2, h3, h4, h5]

/-- Every range of IPv6 but the default has one subnet. -/
theorem matchCIDR_of_range {name : String} {net : List Nat} {bits : Nat} (named : v.range = name)
    (special : name ≠ "unicast")
    (only : IPv6.SpecialRanges.filter (·.1 = name) = [(name, [(net, bits)])]) :
    matchCIDR 16 v.parts net bits = true := by
  obtain ⟨subnets, known, subnet, member, fits⟩ := mem_of_subnetMatch named special
  have same : (name, subnets) ∈ IPv6.SpecialRanges.filter (·.1 = name) :=
    List.mem_filter.mpr ⟨known, decide_eq_true rfl⟩
  rw [only, List.mem_singleton] at same
  cases same
  cases List.mem_singleton.mp member
  exact fits

theorem mapped_of_range (named : v.range = "ipv4Mapped") : v.Within .mapped :=
  matchCIDR_of_range named (by decide) (by decide)

theorem range_of_nat64 (within : v.Within .nat64) : v.range = "rfc6052" := by
  obtain ⟨h0, h1, h2, h3, h4, h5⟩ := within_nat64.mp within
  simp [IPv6.range, subnetMatch, IPv6.SpecialRanges, IPv6.parts, matchCIDR, h0, h1, h2, h3, h4, h5]

theorem range_of_sixToFour (within : v.Within .sixToFour) : v.range = "6to4" := by
  have h0 := within_sixToFour.mp within
  simp [IPv6.range, subnetMatch, IPv6.SpecialRanges, IPv6.parts, matchCIDR, h0]

end Ranges

/-! ### What the check refuses -/

section Blocked

variable {v : IPv6}

/-- Of an IPv4-mapped literal, the address inside decides. -/
theorem isBlockedAddress_of_mapped (within : v.Within .mapped) :
    isBlockedAddress v.parsed = true ↔ (Embedding.address v .mapped).Internal := by
  have unwrapped : v.isIPv4MappedAddress = true := decide_eq_true (range_of_mapped within)
  simp [IPv6.parsed, unwrapped, isBlockedAddress, BLOCKED_IPV4_RANGES, IPv4.Internal,
    Embedding.address, IPv6.toIPv4Address]

/-- Of any other literal, the range of its own decides. -/
theorem isBlockedAddress_of_not_mapped (outside : ¬v.Within .mapped) :
    isBlockedAddress v.parsed = true ↔ v.InternalRange := by
  have whole : v.isIPv4MappedAddress = false :=
    decide_eq_false fun named => outside (mapped_of_range named)
  simp [IPv6.parsed, whole, isBlockedAddress, BLOCKED_IPV6_RANGES, IPv6.InternalRange]

/-- The range of an IPv4-mapped literal is none of the internal ones. -/
theorem not_internalRange_of_mapped (within : v.Within .mapped) : ¬v.InternalRange := by
  simp [IPv6.InternalRange, range_of_mapped within]

/-- Beside `::` and `::1`, the range of a literal with an IPv4 address in it is never internal. -/
theorem not_internalRange_of_within {e : Embedding} (within : v.Within e)
    (unspecified : v ≠ ⟨0, 0, 0, 0, 0, 0, 0, 0⟩) (loopback : v ≠ ⟨0, 0, 0, 0, 0, 0, 0, 1⟩) :
    ¬v.InternalRange := by
  cases e with
  | mapped => exact not_internalRange_of_mapped within
  | nat64 => simp [IPv6.InternalRange, range_of_nat64 within]
  | sixToFour => simp [IPv6.InternalRange, range_of_sixToFour within]
  | compatible =>
    -- only the two ranges of one address each have addresses that start with zeros
    obtain ⟨h0, h1, h2, h3, h4, h5⟩ := within_compatible.mp within
    intro internal
    simp only [IPv6.InternalRange, List.mem_cons, List.not_mem_nil, or_false] at internal
    rcases internal with named | named | named | named
    · have fits := matchCIDR_of_range named (by decide) rfl
      refine loopback ?_
      simpa [matchCIDR, IPv6.parts, IPv6.eq_iff] using fits
    · have fits := matchCIDR_of_range named (by decide) rfl
      simp [matchCIDR, IPv6.parts, h0] at fits
    · have fits := matchCIDR_of_range named (by decide) rfl
      simp [matchCIDR, IPv6.parts, h0] at fits
    · have fits := matchCIDR_of_range named (by decide) rfl
      refine unspecified ?_
      simpa [matchCIDR, IPv6.parts, IPv6.eq_iff] using fits

/-- The other networks have no IPv4-mapped address. -/
theorem eq_mapped_of_within {e : Embedding} (mapped : v.Within .mapped) (within : v.Within e) :
    e = .mapped := by
  obtain ⟨h0, -, -, -, -, h5⟩ := within_mapped.mp mapped
  cases e with
  | mapped => rfl
  | compatible =>
    have := (within_compatible.mp within).2.2.2.2.2
    omega
  | nat64 =>
    have := (within_nat64.mp within).1
    omega
  | sixToFour =>
    have := within_sixToFour.mp within
    omega

/-- The check refuses exactly the internal literals that are not hidden. -/
theorem isBlockedAddress_iff : isBlockedAddress v.parsed = true ↔ v.Internal ∧ ¬v.Hidden := by
  by_cases mapped : v.Within .mapped
  · rw [isBlockedAddress_of_mapped mapped]
    constructor
    · intro internal
      refine ⟨.inr ⟨.mapped, mapped, internal⟩, ?_⟩
      -- mapped and hidden exclude each other
      rintro ⟨-, -, e, other, within, -⟩
      exact other (eq_mapped_of_within mapped within)
    · rintro ⟨range | ⟨e, within, internal⟩, -⟩
      · exact absurd range (not_internalRange_of_mapped mapped)
      · rwa [eq_mapped_of_within mapped within] at internal
  · rw [isBlockedAddress_of_not_mapped mapped]
    constructor
    · intro range
      refine ⟨.inl range, ?_⟩
      rintro ⟨unspecified, loopback, e, -, within, -⟩
      exact not_internalRange_of_within within unspecified loopback range
    · rintro ⟨range | ⟨e, within, internal⟩, visible⟩
      · exact range
      by_cases unspecified : v = ⟨0, 0, 0, 0, 0, 0, 0, 0⟩
      · subst unspecified
        simp [IPv6.InternalRange]
        decide
      by_cases loopback : v = ⟨0, 0, 0, 0, 0, 0, 0, 1⟩
      · subst loopback
        simp [IPv6.InternalRange]
        decide
      -- what is left is internal only by the address inside
      have other : e ≠ .mapped := fun same => mapped (same ▸ within)
      exact absurd ⟨unspecified, loopback, e, other, within, internal⟩ visible

theorem IPv6.Hidden.internal (hidden : v.Hidden) : v.Internal := by
  obtain ⟨-, -, e, -, within, internal⟩ := hidden
  exact .inr ⟨e, within, internal⟩

end Blocked

/-! ### Hosts -/

section Hosts

variable {P : Platform} {V : Validators} {url : String} {host : Host}

theorem stripBrackets_bracketed (s : String) : stripBrackets ("[" ++ s ++ "]") = s := by
  have last : ('[' :: (s.toList ++ [']'])).getLast? = some ']' := by
    rw [← List.cons_append, List.getLast?_append]
    rfl
  simp [stripBrackets, last]

/-- A decimal number starts with a digit. -/
theorem head?_decimal : ∀ n : Fin 256,
    ((toString n.val).toList.head?.any fun c => decide (c ≠ '[')) = true := by
  decide +kernel

theorem stripBrackets_dotted (v : IPv4) : stripBrackets v.serialize = v.serialize := by
  obtain ⟨c, head, digit⟩ := (Option.any_eq_true _ _).mp (head?_decimal v.a)
  have first : v.serialize.toList.head? = some c := by
    simp only [IPv4.serialize, String.toList_append, List.head?_append, head]
    rfl
  rw [stripBrackets, if_neg]
  -- its first character is a digit
  rintro ⟨bracket, -⟩
  rw [first] at bracket
  exact of_decide_eq_true digit (Option.some.inj bracket)

theorem IPv4.isBlockedAddress_iff {v : IPv4} : isBlockedAddress v.parsed = true ↔ v.Internal := by
  simp [IPv4.parsed, isBlockedAddress, BLOCKED_IPV4_RANGES, IPv4.Internal]

/-- The check refuses exactly the internal hosts that are not hidden. -/
theorem blocked_iff_of_reads (reads : Reads V url host) (internal : host.Internal) :
    hostIsBlockedLiteralIp V (V.urlHostname url) = true ↔ ¬host.Hidden := by
  rw [reads.hostname]
  cases host with
  | domain name => exact internal.elim
  | ipv4 v =>
    obtain ⟨valid, parse⟩ := reads.ipv4 v rfl
    have blocked := IPv4.isBlockedAddress_iff.mpr internal
    simp [hostIsBlockedLiteralIp, Host.hostname, stripBrackets_dotted, valid, parse, blocked,
      Host.Hidden]
  | ipv6 v =>
    obtain ⟨valid, parse⟩ := reads.ipv6 v rfl
    have known : v.Internal := internal
    simp [hostIsBlockedLiteralIp, Host.hostname, stripBrackets_bracketed, valid, parse,
      isBlockedAddress_iff, Host.Hidden, known]

theorem Host.Hidden.internal (hidden : host.Hidden) : host.Internal := by
  cases host with
  | ipv4 v => exact hidden.elim
  | ipv6 v => exact IPv6.Hidden.internal hidden
  | domain name => exact hidden.elim

/-- A string that is accepted does not lead to an internal literal, exactly if it does not lead to
one hidden in a NAT64, a 6to4 or an IPv4-compatible literal. -/
theorem literal_blocking_iff (reads : Reads V url host) :
    (isPublic P V url = true → ¬host.Internal) ↔ (hasHttpScheme P url = true → ¬host.Hidden) := by
  rw [isPublic_iff]
  constructor
  · intro complete scheme hidden
    have internal := hidden.internal
    have accepted : hostIsBlockedLiteralIp V (V.urlHostname url) = false := by
      rw [← Bool.not_eq_true, blocked_iff_of_reads reads internal]
      exact not_not_intro hidden
    exact complete ⟨scheme, accepted⟩ internal
  · rintro visible ⟨scheme, accepted⟩ internal
    have blocked := (blocked_iff_of_reads reads internal).mpr (visible scheme)
    rw [accepted] at blocked
    cases blocked

end Hosts

/-! ### The loopback address behind the NAT64 network -/

/-- `Validators.plain` with the part of ipaddr.js that knows one literal. -/
def Validators.knowing (v : IPv6) : Validators :=
  { Validators.plain with
    ipaddrIsValid := fun host => decide (host = v.serialize)
    ipaddrParse := fun host => if host = v.serialize then some v.parsed else none }

/-- `http://[64:ff9b::7f00:1]/`, for 127.0.0.1. -/
def nat64Loopback : IPv6 := ⟨0x64, 0xff9b, 0, 0, 0, 0, 0x7f00, 1⟩

def mappedLoopback : IPv6 := ⟨0, 0, 0, 0, 0, 0xffff, 0x7f00, 1⟩

theorem reads_nat64Loopback :
    Reads (.knowing nat64Loopback) "http://[64:ff9b::7f00:1]/" (.ipv6 nat64Loopback) := by
  constructor
  case hostname => decide +kernel
  case ipv4 => exact fun v other => nomatch other
  case ipv6 =>
    rintro v ⟨⟩
    simp [Validators.knowing]

theorem reads_mappedLoopback :
    Reads (.knowing mappedLoopback) "http://[::ffff:7f00:1]/" (.ipv6 mappedLoopback) := by
  constructor
  case hostname => decide +kernel
  case ipv4 => exact fun v other => nomatch other
  case ipv6 =>
    rintro v ⟨⟩
    simp [Validators.knowing]

theorem internal_nat64Loopback : nat64Loopback.Internal :=
  .inr ⟨.nat64, by unfold IPv6.Within; decide, by unfold IPv4.Internal; decide⟩

/-- It is accepted, and denotes the loopback address. -/
theorem nat64_loopback_accepted : ¬∀ (P : Platform) (V : Validators) (url : String) (host : Host),
    Reads V url host → isPublic P V url = true → ¬host.Internal := by
  intro complete
  exact complete Platform.plain _ _ _ reads_nat64Loopback (by decide +kernel)
    internal_nat64Loopback

theorem literal_blocking_mapped :
    (isPublic Platform.plain (.knowing mappedLoopback) "http://[::ffff:7f00:1]/" = true →
        ¬(Host.ipv6 mappedLoopback).Internal) ↔
      (hasHttpScheme Platform.plain "http://[::ffff:7f00:1]/" = true →
        ¬(Host.ipv6 mappedLoopback).Hidden) :=
  literal_blocking_iff reads_mappedLoopback

end Mikrouli
