import Mikrouli.Model.Authorities

/-! Who is admitted as a guest for the sake of its origin.

The host names that are allowed are the one of the public base URL, as the parser writes it, and the
text of Host before its first colon. The parser writes the origin's in lower case and an IPv6
address in brackets, so a Host that is not written like that is not found again in the origin. -/

namespace Mikrouli

namespace GuestOrAuthenticatedGuard

variable {env : GuardEnv} {req : HttpRequest} {a : Authority}

/-! ### The two headers -/

/-- Origin or, without Origin, Referer. -/
def sourceHeader (req : HttpRequest) : Option HeaderValue :=
  ((req.header "origin").filter HeaderValue.truthy).or
    ((req.header "referer").filter HeaderValue.truthy)

/-- The url in Origin or Referer has the authority of Host: the same host on the same port. -/
def SameAuthority (env : GuardEnv) (req : HttpRequest) (a : Authority) : Prop :=
  ∃ (header : HeaderValue) (u : HttpUrl), sourceHeader req = some header ∧
    header.toString = u.text ∧ env.urlHostname u.text ≠ none ∧
      u.authority.hostname = a.hostname ∧ u.authority.portOn u.scheme = a.portOn u.scheme

/-- The host name of the public base URL, if one is configured. -/
def baseHostname (env : GuardEnv) : Option String :=
  (env.publicBaseUrl.filter (· ≠ "")).bind env.urlHostname

/-- Host names are the same in any letter case. -/
def SameName (s t : String) : Prop := lower s.toList = lower t.toList

/-- Origin is sent, and its host name, if it has one, is another than those of Host and of the public
base URL. -/
def ForeignOrigin (env : GuardEnv) (req : HttpRequest) (a : Authority) : Prop :=
  ∃ header, (req.header "origin").filter HeaderValue.truthy = some header ∧
    ∀ h, env.urlHostname header.toString = some h →
      ¬SameName h a.hostname ∧ baseHostname env ≠ some h

/-- Whatever the lookup of the Guest row gives is the answer. -/
def Admits (env : GuardEnv) (req : HttpRequest) : Prop :=
  ∀ found, canActivate { env with getGuestUserId := found } req = found.map fun id => ⟨id, true⟩

def Refuses (env : GuardEnv) (req : HttpRequest) : Prop :=
  canActivate env req = .error UnauthorizedException

/-- Requests of the same origin are admitted, and those of a foreign one refused. -/
structure AdmitsSameOrigin (env : GuardEnv) (req : HttpRequest) (a : Authority) : Prop where
  admitted : SameAuthority env req a → Admits env req
  refused : ForeignOrigin env req a → Refuses env req

/-! ### Host -/

/-- Host is written the way the parser writes it, and not in brackets. -/
def AsParsed (a : Authority) : Prop :=
  match a.host with
  | .name s _ => lower s = s
  | .ipv4 _ => True
  | .ipv6 _ _ _ => False

/-- What the guard takes of Host. -/
def hostWord (a : Authority) : List Char := a.text.takeWhile (· ≠ ':')

theorem isNameChar_of_mem {s : List Char} (valid : isHostName s = true) :
    s ≠ [] ∧ ∀ c ∈ s, isNameChar c = true := by
  rw [isHostName, Bool.and_eq_true, Bool.and_eq_true, decide_eq_true_eq, List.all_eq_true] at valid
  exact valid.1

theorem ne_colon_of_isNameChar {c : Char} (named : isNameChar c = true) : c ≠ ':' := by
  rintro rfl
  revert named
  decide

theorem digit_or_dot {v : IPv4} {c : Char} (member : c ∈ v.serialize.toList) :
    c.isDigit = true ∨ c = '.' := by
  have digit : ∀ n : Nat, c ∈ (toString n).toList → c.isDigit = true := by
    intro n inside
    rw [Nat.toString_eq_ofList_toDigits, String.toList_ofList] at inside
    exact Nat.isDigit_of_mem_toDigits (by decide) (by decide) inside
  simp only [IPv4.serialize, String.toList_append, List.mem_append] at member
  rcases member with ((((((a | dot) | b) | dot) | c') | dot) | d)
  · exact .inl (digit _ a)
  · exact .inr (List.mem_singleton.mp dot)
  · exact .inl (digit _ b)
  · exact .inr (List.mem_singleton.mp dot)
  · exact .inl (digit _ c')
  · exact .inr (List.mem_singleton.mp dot)
  · exact .inl (digit _ d)

theorem isNameChar_of_mem_serialize {v : IPv4} {c : Char} (member : c ∈ v.serialize.toList) :
    isNameChar c = true := by
  rcases digit_or_dot member with digit | rfl
  · simp [isNameChar, Char.isAlphanum, digit]
  · decide

/-- A host that is not in brackets is taken whole. -/
theorem hostWord_of_isNameChar (named : ∀ c ∈ a.host.text, isNameChar c = true) :
    hostWord a = a.host.text := by
  have inside : ∀ c ∈ a.host.text, decide (c ≠ ':') = true := fun c member =>
    decide_eq_true (ne_colon_of_isNameChar (named c member))
  rw [hostWord, Authority.text, List.takeWhile_append_of_pos inside]
  cases a.port <;> simp

theorem hostWord_name {s : List Char} {valid : isHostName s = true} (here : a.host = .name s valid) :
    hostWord a = s := by
  rw [hostWord_of_isNameChar] <;> rw [here]
  · rfl
  · exact (isNameChar_of_mem valid).2

theorem hostWord_ipv4 {v : IPv4} (here : a.host = .ipv4 v) : hostWord a = v.serialize.toList := by
  rw [hostWord_of_isNameChar] <;> rw [here]
  · rfl
  · exact fun c member => isNameChar_of_mem_serialize member

/-- Of a host in brackets it takes the first bracket and the first piece. -/
theorem head?_hostWord_ipv6 {s : List Char} {v : IPv6} {valid : IPv6.read s = some v}
    (here : a.host = .ipv6 s v valid) : (hostWord a).head? = some '[' := by
  simp [hostWord, Authority.text, here, HostText.text]

theorem colon_not_mem_hostWord : ':' ∉ hostWord a := by
  intro colon
  simpa [hostWord] using List.mem_takeWhile_imp colon

theorem hostWord_ne_nil : hostWord a ≠ [] := by
  cases here : a.host with
  | name s valid =>
    rw [hostWord_name here]
    exact (isNameChar_of_mem valid).1
  | ipv4 v =>
    rw [hostWord_ipv4 here]
    simp [IPv4.serialize]
  | ipv6 s v valid =>
    intro empty
    have first := head?_hostWord_ipv6 here
    rw [empty] at first
    cases first

theorem toNat_toLower {c : Char} (upper : 65 ≤ c.toNat ∧ c.toNat ≤ 90) :
    c.toLower.toNat = c.toNat + 32 := by
  have range : c.val ≥ 'A'.val ∧ c.val ≤ 'Z'.val := by
    rw [ge_iff_le, UInt32.le_iff_toNat_le, UInt32.le_iff_toNat_le]
    exact upper
  have lowered : c.toLower.val = c.val + ('a'.val - 'A'.val) :=
    congrArg Char.val (dif_pos range : c.toLower = _)
  have between : ('a'.val - 'A'.val).toNat = 32 := rfl
  have same : c.val.toNat = c.toNat := rfl
  rw [← Char.toNat_val, lowered, UInt32.toNat_add, between]
  omega

theorem toLower_of_not_upper {c : Char} (other : ¬(65 ≤ c.toNat ∧ c.toNat ≤ 90)) : c.toLower = c := by
  refine dif_neg fun range => other ?_
  rw [ge_iff_le, UInt32.le_iff_toNat_le, UInt32.le_iff_toNat_le] at range
  exact range

theorem toLower_toLower (c : Char) : c.toLower.toLower = c.toLower := by
  by_cases upper : 65 ≤ c.toNat ∧ c.toNat ≤ 90
  · have lowered := toNat_toLower upper
    -- the letters `a` to `z` are behind `Z`
    exact toLower_of_not_upper (by omega)
  · rw [toLower_of_not_upper upper, toLower_of_not_upper upper]

theorem lower_lower (s : List Char) : lower (lower s) = lower s := by
  rw [lower, lower, List.map_map]
  exact List.map_congr_left fun c _ => toLower_toLower c

/-- The parser's name for the host is the word that the guard takes just where Host is written as
parsed. -/
theorem hostname_eq_hostWord_iff (bracketed : a.hostname.toList.head? = some '[' →
    ':' ∈ a.hostname.toList) : a.hostname = String.ofList (hostWord a) ↔ AsParsed a := by
  rw [AsParsed, ← String.toList_inj, String.toList_ofList]
  cases here : a.host with
  | name s valid =>
    rw [hostWord_name here, Authority.hostname, here]
    simp [HostText.host, Host.hostname]
  | ipv4 v =>
    rw [hostWord_ipv4 here, Authority.hostname, here]
    exact iff_of_true rfl trivial
  | ipv6 s v valid =>
    refine iff_of_false (fun same => ?_) id
    -- the parser's name has colons, the guard's word has none
    rw [same] at bracketed
    exact colon_not_mem_hostWord (bracketed (head?_hostWord_ipv6 here))

/-- A host name that is the word is the name of the host, in some letter case. -/
theorem sameName_hostWord {h : String} (word : h = String.ofList (hostWord a))
    (bracketed : h.toList.head? = some '[' → ':' ∈ h.toList) : SameName h a.hostname := by
  subst word
  cases here : a.host with
  | name s valid =>
    rw [SameName, hostWord_name here, Authority.hostname, here]
    simp only [HostText.host, Host.hostname, String.toList_ofList]
    exact (lower_lower s).symm
  | ipv4 v =>
    rw [SameName, hostWord_ipv4 here, Authority.hostname, here, String.ofList_toList]
    rfl
  | ipv6 s v valid =>
    rw [String.toList_ofList] at bracketed
    exact absurd (bracketed (head?_hostWord_ipv6 here)) colon_not_mem_hostWord

/-! ### The guard -/

theorem mem_resolveAllowedHostnames (sent : req.header "host" = some (.one (String.ofList a.text)))
    {h : String} : h ∈ resolveAllowedHostnames env req ↔
      baseHostname env = some h ∧ h ≠ "" ∨ h = String.ofList (hostWord a) := by
  have word : String.ofList (hostWord a) ≠ "" := fun empty =>
    hostWord_ne_nil (String.ofList_inj.mp empty)
  have text : String.ofList a.text ≠ "" := by
    intro empty
    apply word
    rw [hostWord, String.ofList_inj.mp empty]
    rfl
  have truthy : HeaderValue.truthy (.one (String.ofList a.text)) = true := decide_eq_true text
  rw [resolveAllowedHostnames, List.mem_dedup, List.mem_append, Option.mem_toList, Option.mem_toList,
    sent, Option.filter_some_pos truthy, Option.bind_some, HeaderValue.toString,
    String.toList_ofList]
  refine or_congr ?_ ?_
  · rw [baseHostname]
    cases env.publicBaseUrl.filter (· ≠ "") with
    | none => simp
    | some url =>
      rw [Option.bind_some, Option.bind_some, Option.filter_eq_some_iff, decide_eq_true_eq]
  · rw [show a.text.takeWhile (· ≠ ':') = hostWord a from rfl, Option.filter_eq_some_iff,
      decide_eq_true_eq, Option.some.injEq]
    exact ⟨fun ⟨same, _⟩ => same.symm, fun same => ⟨same.symm, same ▸ word⟩⟩

theorem isBrowserRequest_iff {allowed : List String} : isBrowserRequest env req allowed = true ↔
    ∃ header, sourceHeader req = some header ∧
      ∃ h, env.urlHostname header.toString = some h ∧ h ∈ allowed := by
  unfold isBrowserRequest sourceHeader
  split
  next empty =>
    subst empty
    refine iff_of_false Bool.false_ne_true ?_
    rintro ⟨header, -, h, -, member⟩
    cases member
  next =>
    cases (req.header "origin").filter HeaderValue.truthy with
    | some origin =>
      simp only [Option.some_or, Option.some.injEq, exists_eq_left', Option.any_eq_true,
        decide_eq_true_eq]
    | none => simp only [Option.none_or, Option.any_eq_true, decide_eq_true_eq]

section Guests

variable (enabled : isTruthyFlag env.guestShortenEnabled = true)
  (anonymous : carriesApiCredential req = false)

include enabled anonymous in
theorem canActivate_guest : canActivate env req =
    if isBrowserRequest env req (resolveAllowedHostnames env req) = true then
      env.getGuestUserId.map fun id => ⟨id, true⟩
    else .error UnauthorizedException := by
  simp only [canActivate, anonymous, enabled, Bool.false_eq_true, ↓reduceIte, reduceCtorEq]
  cases isBrowserRequest env req (resolveAllowedHostnames env req) with
  | true =>
    cases env.getGuestUserId <;> rfl
  | false => rfl

include enabled anonymous in
theorem admits_iff : Admits env req ↔
    isBrowserRequest env req (resolveAllowedHostnames env req) = true := by
  have guest : ∀ found, canActivate { env with getGuestUserId := found } req =
      if isBrowserRequest env req (resolveAllowedHostnames env req) = true then
        found.map fun id => ⟨id, true⟩
      else .error UnauthorizedException := by
    intro found
    let env' := { env with getGuestUserId := found }
    have enabled' : isTruthyFlag env'.guestShortenEnabled = true := enabled
    exact canActivate_guest enabled' anonymous
  constructor
  · intro admits
    by_contra other
    have refused := (guest (.ok "")).symm.trans (admits (.ok ""))
    rw [if_neg other] at refused
    cases refused
  · intro browser found
    rw [guest, if_pos browser]

end Guests

theorem hostname_ne_empty : a.hostname ≠ "" := by
  rw [Authority.hostname]
  cases a.host with
  | name s valid =>
    intro empty
    apply (isNameChar_of_mem valid).1
    simpa [HostText.host, Host.hostname, lower] using String.ofList_inj.mp empty
  | ipv4 v => simp [HostText.host, Host.hostname, IPv4.serialize, ← String.toList_inj]
  | ipv6 s v valid => simp [HostText.host, Host.hostname, ← String.toList_inj]

/-- A request of the same origin has the host's own name in its origin. -/
theorem read_of_sameAuthority (reads : ReadsHosts env.urlHostname) (same : SameAuthority env req a) :
    ∃ header, sourceHeader req = some header ∧
      env.urlHostname header.toString = some a.hostname := by
  obtain ⟨header, u, source, text, accepted, host, -⟩ := same
  refine ⟨header, source, ?_⟩
  rw [text]
  cases read : env.urlHostname u.text with
  | none => exact absurd read accepted
  | some h => rw [reads.hostname u h read, host]

theorem refused_of_foreignOrigin (reads : ReadsHosts env.urlHostname)
    (enabled : isTruthyFlag env.guestShortenEnabled = true)
    (anonymous : carriesApiCredential req = false)
    (sent : req.header "host" = some (.one (String.ofList a.text)))
    (foreign : ForeignOrigin env req a) : Refuses env req := by
  obtain ⟨header, origin, other⟩ := foreign
  rw [Refuses, canActivate_guest enabled anonymous, if_neg]
  intro browser
  obtain ⟨header', source, h, read, allowed⟩ := isBrowserRequest_iff.mp browser
  -- with Origin the Referer is not looked at
  rw [sourceHeader, origin, Option.some_or] at source
  cases source
  obtain ⟨names, base⟩ := other h read
  rcases (mem_resolveAllowedHostnames sent).mp allowed with ⟨configured, -⟩ | word
  · exact base configured
  · exact names (sameName_hostWord word (reads.bracketed _ h read))

/-- A foreign origin is always refused, and the same origin admitted, exactly if Host is a name in
lower case or an IPv4 address, or has the name of the public base URL. -/
theorem admits_sameOrigin_iff (reads : ReadsHosts env.urlHostname)
    (enabled : isTruthyFlag env.guestShortenEnabled = true)
    (anonymous : carriesApiCredential req = false)
    (sent : req.header "host" = some (.one (String.ofList a.text))) :
    AdmitsSameOrigin env req a ↔
      (SameAuthority env req a → AsParsed a ∨ baseHostname env = some a.hostname) := by
  have browser (same : SameAuthority env req a) :
      isBrowserRequest env req (resolveAllowedHostnames env req) = true ↔
        AsParsed a ∨ baseHostname env = some a.hostname := by
    obtain ⟨header, source, read⟩ := read_of_sameAuthority reads same
    rw [← hostname_eq_hostWord_iff (reads.bracketed _ _ read), isBrowserRequest_iff]
    constructor
    · rintro ⟨header', source', h, read', allowed⟩
      rw [source] at source'
      cases source'
      rw [read] at read'
      cases read'
      rcases (mem_resolveAllowedHostnames sent).mp allowed with ⟨base, -⟩ | word
      · exact .inr base
      · exact .inl word
    · intro recognised
      refine ⟨header, source, _, read, (mem_resolveAllowedHostnames sent).mpr ?_⟩
      exact recognised.symm.imp_left fun base => ⟨base, hostname_ne_empty⟩
  constructor
  · intro admits same
    exact (browser same).mp ((admits_iff enabled anonymous).mp (admits.admitted same))
  · intro recognised
    constructor
    case admitted =>
      intro same
      exact (admits_iff enabled anonymous).mpr ((browser same).mpr (recognised same))
    case refused => exact refused_of_foreignOrigin reads enabled anonymous sent

/-! ### A parser for authorities -/

def readHost : List Char → Option String
  | '[' :: inner => (IPv6.read (inner.takeWhile (· ≠ ']'))).map fun v => (Host.ipv6 v).hostname
  | authority =>
    let name := authority.takeWhile (· ≠ ':')
    if name.all isNameChar then some (String.ofList (lower name)) else none

/-- The host name of a url with an authority and without user information. -/
def parseHostname (url : String) : Option String :=
  match url.toList.dropWhile (· ≠ ':') with
  | ':' :: '/' :: '/' :: rest => readHost (rest.takeWhile fun c => decide (c ∉ ['/', '?', '#']))
  | _ => none

theorem colon_mem_serialize (v : IPv6) : ':' ∈ v.serialize.toList := by
  rw [IPv6.serialize]
  dsimp only
  split
  · simp [IPv6.parts]
  · simp

theorem lower_serialize (v : IPv4) : lower v.serialize.toList = v.serialize.toList := by
  refine (List.map_congr_left (g := id) fun c member => ?_).trans (List.map_id _)
  rcases digit_or_dot member with digit | rfl
  · simp only [Char.isDigit, Bool.and_eq_true, decide_eq_true_eq, UInt32.le_iff_toNat_le] at digit
    refine toLower_of_not_upper ?_
    -- digits come before letters
    have last : '9'.val.toNat = 57 := rfl
    have same : c.val.toNat = c.toNat := rfl
    omega
  · rfl

theorem isLiteralChar_of_read {s : List Char} {v : IPv6} (valid : IPv6.read s = some v) :
    ∀ c ∈ s, IPv6.isLiteralChar c = true := by
  unfold IPv6.read at valid
  split at valid
  · cases valid
  next plain => exact List.all_eq_true.mp (by simpa using plain)

/-- What ends an authority is not in it. -/
theorem not_delimiter_of_mem {c : Char} (member : c ∈ a.text) : c ∉ ['/', '?', '#'] := by
  intro delimiter
  have ⟨noName, noLiteral, noDigit, noMark⟩ : isNameChar c = false ∧ IPv6.isLiteralChar c = false ∧
      c.isDigit = false ∧ c ∉ ['[', ']', ':'] := by
    simp only [List.mem_cons, List.not_mem_nil, or_false] at delimiter
    rcases delimiter with rfl | rfl | rfl <;> decide
  rcases List.mem_append.mp member with host | port
  · cases here : a.host with
    | name s valid =>
      rw [here] at host
      rw [(isNameChar_of_mem valid).2 c host] at noName
      cases noName
    | ipv4 v =>
      rw [here] at host
      rw [isNameChar_of_mem_serialize host] at noName
      cases noName
    | ipv6 s v valid =>
      rw [here] at host
      simp only [HostText.text, List.cons_append, List.mem_cons, List.mem_append,
        List.not_mem_nil, or_false] at host
      rcases host with rfl | literal | rfl
      · exact noMark (by decide)
      · rw [isLiteralChar_of_read valid c literal] at noLiteral
        cases noLiteral
      · exact noMark (by decide)
  · cases here : a.port with
    | none =>
      rw [here] at port
      cases port
    | some digits =>
      rw [here] at port
      rcases List.mem_cons.mp port with rfl | digit
      · exact noMark (by decide)
      · rw [List.all_eq_true.mp (a.valid digits here) c digit] at noDigit
        cases noDigit

/-- The text of a url from its first colon on. -/
theorem dropWhile_text (u : HttpUrl) : u.text.toList.dropWhile (· ≠ ':') =
    ':' :: '/' :: '/' :: (u.authority.text ++ u.rest) := by
  have scheme : ∀ c ∈ u.schemeText, decide (c ≠ ':') = true := by
    intro c member
    refine decide_eq_true ?_
    rintro rfl
    have letters : ':' ∈ u.scheme.text := by
      rw [← u.spelled]
      exact List.mem_map.mpr ⟨':', member, rfl⟩
    revert letters
    cases u.scheme <;> decide
  rw [HttpUrl.text, String.toList_ofList, List.append_assoc, List.append_assoc,
    List.dropWhile_append_of_pos scheme]
  rfl

theorem takeWhile_authority (u : HttpUrl) :
    (u.authority.text ++ u.rest).takeWhile (fun c => decide (c ∉ ['/', '?', '#'])) =
      u.authority.text := by
  rw [List.takeWhile_append_of_pos fun c member => decide_eq_true (not_delimiter_of_mem member)]
  have bounded := u.bounded
  cases rest : u.rest with
  | nil => simp
  | cons c rest' =>
    rw [rest] at bounded
    have delimiter : c ∈ ['/', '?', '#'] := by simpa using bounded c rfl
    rw [List.takeWhile_cons_of_neg, List.append_nil]
    rw [decide_eq_true_eq, not_not]
    exact delimiter

theorem readHost_plain (named : ∀ c ∈ a.host.text, isNameChar c = true) :
    readHost a.text = some (String.ofList (lower a.host.text)) := by
  have word : a.text.takeWhile (· ≠ ':') = a.host.text := hostWord_of_isNameChar named
  have names : a.host.text.all isNameChar = true := List.all_eq_true.mpr named
  unfold readHost
  split
  next inner bracket =>
    -- a bracket would be in the word
    have first : '[' ∈ a.host.text := by
      rw [← word, bracket]
      simp
    exact absurd (named _ first) (by decide)
  next => rw [word, if_pos names]

theorem readHost_text (a : Authority) : readHost a.text = some a.hostname := by
  cases here : a.host with
  | name s valid =>
    rw [readHost_plain, Authority.hostname] <;> rw [here]
    · rfl
    · exact (isNameChar_of_mem valid).2
  | ipv4 v =>
    rw [readHost_plain, Authority.hostname] <;> rw [here]
    · simp only [HostText.text, lower_serialize, String.ofList_toList]
      rfl
    · exact fun c member => isNameChar_of_mem_serialize member
  | ipv6 s v valid =>
    have text : a.text = '[' :: (s ++ ']' :: (a.port.map fun digits => ':' :: digits).getD []) := by
      rw [Authority.text, here]
      simp [HostText.text]
    have inner : ∀ c ∈ s, decide (c ≠ ']') = true := by
      intro c member
      refine decide_eq_true ?_
      rintro rfl
      have literal := isLiteralChar_of_read valid _ member
      revert literal
      decide
    rw [text, readHost, List.takeWhile_append_of_pos inner]
    simp [valid, Authority.hostname, here, HostText.host]

theorem toLower_ne_bracket {c : Char} (named : isNameChar c = true) : c.toLower ≠ '[' := by
  by_cases upper : 65 ≤ c.toNat ∧ c.toNat ≤ 90
  · intro bracket
    have lowered := toNat_toLower upper
    rw [bracket] at lowered
    have mark : '['.toNat = 91 := rfl
    omega
  · rw [toLower_of_not_upper upper]
    rintro rfl
    exact absurd named (by decide)

theorem readsHosts_parseHostname : ReadsHosts parseHostname := by
  constructor
  case hostname =>
    intro u h read
    simp only [parseHostname, dropWhile_text, takeWhile_authority, readHost_text] at read
    exact (Option.some.inj read).symm
  case bracketed =>
    intro url h read first
    unfold parseHostname at read
    split at read
    · unfold readHost at read
      split at read
      · obtain ⟨v, -, rfl⟩ := Option.map_eq_some_iff.mp read
        simp [Host.hostname, colon_mem_serialize]
      · obtain ⟨named, same⟩ := Option.ite_none_right_eq_some.mp read
        cases same
        rw [String.toList_ofList] at first
        obtain ⟨c, member, bracket⟩ := List.mem_map.mp (List.mem_of_head? first)
        exact absurd bracket (toLower_ne_bracket (List.all_eq_true.mp named c member))
    · cases read

/-! ### Visitors of a development server -/

def devServer : GuardEnv where
  urlHostname := parseHostname
  guestShortenEnabled := none
  publicBaseUrl := none
  authenticate _ _ := .error UnauthorizedException
  getGuestUserId := .ok "guest"

/-- The page's own request, as the browser sends it. -/
def pageRequest (a : Authority) : HttpRequest :=
  ⟨[("Host", String.ofList a.text), ("Origin", String.ofList ("http://".toList ++ a.text))], none⟩

theorem sameAuthority_pageRequest
    (sent : (pageRequest a).header "origin" =
      some (.one (String.ofList ("http://".toList ++ a.text)))) :
    SameAuthority devServer (pageRequest a) a := by
  let u : HttpUrl := ⟨.http, "http".toList, a, [], by decide, by simp⟩
  have text : u.text = String.ofList ("http://".toList ++ a.text) := by
    simp [HttpUrl.text, u]
  have truthy : HeaderValue.truthy (.one (String.ofList ("http://".toList ++ a.text))) = true := by
    refine decide_eq_true fun empty => ?_
    cases String.ofList_inj.mp empty
  refine ⟨.one u.text, u, ?_, rfl, ?_, rfl, rfl⟩
  · rw [sourceHeader, sent, Option.filter_some_pos truthy, text]
    rfl
  · have read : parseHostname u.text = some a.hostname := by
      simp only [parseHostname, dropWhile_text, takeWhile_authority, readHost_text]
      rfl
    rw [show devServer.urlHostname = parseHostname from rfl, read]
    exact Option.some_ne_none _

/-- `localhost:3000` -/
def localhost : Authority where
  host := .name "localhost".toList (by decide +kernel)
  port := some "3000".toList
  valid := by decide

/-- `[::1]:3000` -/
def loopback : Authority where
  host := .ipv6 "::1".toList ⟨0, 0, 0, 0, 0, 0, 0, 1⟩ (by decide +kernel)
  port := some "3000".toList
  valid := by decide

theorem admits_sameOrigin_localhost : SameAuthority devServer (pageRequest localhost) localhost ∧
    AdmitsSameOrigin devServer (pageRequest localhost) localhost := by
  refine ⟨sameAuthority_pageRequest (by decide +kernel), ?_⟩
  refine (admits_sameOrigin_iff readsHosts_parseHostname (by decide +kernel) (by decide +kernel)
    (by decide +kernel)).mpr fun _ => .inl ?_
  show lower "localhost".toList = "localhost".toList
  decide +kernel

/-- The page's own request to the loopback address of IPv6 is refused. -/
theorem sameOrigin_refused : ¬∀ (env : GuardEnv) (req : HttpRequest) (a : Authority),
    ReadsHosts env.urlHostname → isTruthyFlag env.guestShortenEnabled = true →
    carriesApiCredential req = false → req.header "host" = some (.one (String.ofList a.text)) →
    AdmitsSameOrigin env req a := by
  intro law
  have admits := (law devServer (pageRequest loopback) loopback readsHosts_parseHostname
    (by decide +kernel) (by decide +kernel) (by decide +kernel)).admitted
    (sameAuthority_pageRequest (by decide +kernel)) (.ok "guest")
  have refused : (canActivate devServer (pageRequest loopback)).toOption = none := by decide +kernel
  rw [show canActivate devServer (pageRequest loopback) = .ok ⟨"guest", true⟩ from admits] at refused
  cases refused

end GuestOrAuthenticatedGuard

end Mikrouli
