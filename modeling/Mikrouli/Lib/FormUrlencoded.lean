import Mathlib.Data.List.Basic
import Mathlib.Data.Fintype.Basic

/-! `application/x-www-form-urlencoded`, as the URL standard parses and serializes it, and the list
of parameters a query string stands for.

Parsing reads any string. What is serialized is in one form, and parsing reads it back. -/

namespace FormUrlencoded

abbrev Bytes := List UInt8

/-! ### UTF-8 -/

def utf8Encode (s : List Char) : Bytes := s.flatMap String.utf8EncodeChar

/-- The second bytes a first byte may have, and how many bytes it needs in all after itself. -/
def lead (b : UInt8) : Option (UInt8 × UInt8 × Nat) :=
  if 0xC2 ≤ b ∧ b ≤ 0xDF then some (0x80, 0xBF, 1)
  else if b = 0xE0 then some (0xA0, 0xBF, 2)
  else if b = 0xED then some (0x80, 0x9F, 2)
  else if 0xE1 ≤ b ∧ b ≤ 0xEF then some (0x80, 0xBF, 2)
  else if b = 0xF0 then some (0x90, 0xBF, 3)
  else if b = 0xF4 then some (0x80, 0x8F, 3)
  else if 0xF1 ≤ b ∧ b ≤ 0xF3 then some (0x80, 0xBF, 3)
  else none

def dropContinuations : Nat → Bytes → Bytes
  | n + 1, b :: rest => if 0x80 ≤ b ∧ b ≤ 0xBF then dropContinuations n rest else b :: rest
  | _, bytes => bytes

/-- What follows a malformed sequence, which ends before the first byte that does not fit. -/
def afterMalformed : Bytes → Bytes
  | b :: c :: rest =>
    match lead b with
    | some (low, high, n) =>
      if low ≤ c ∧ c ≤ high then dropContinuations (n - 1) rest else c :: rest
    | none => c :: rest
  | _ => []

/-- A malformed sequence is read as one replacement character. -/
def decodeWith : Nat → Bytes → List Char
  | fuel + 1, b :: rest =>
    match (b :: rest).toByteArray.utf8DecodeChar? 0 with
    | some c => c :: decodeWith fuel ((b :: rest).drop c.utf8Size)
    -- the replacement character takes the malformed sequence with it
    | none => '\uFFFD' :: decodeWith fuel (afterMalformed (b :: rest))
  | _, _ => []

/-- Every step takes a byte at least. -/
def utf8Decode (bytes : Bytes) : List Char := decodeWith bytes.length bytes

theorem decodeWith_utf8Encode {s : List Char} {fuel : Nat} (enough : (utf8Encode s).length ≤ fuel) :
    decodeWith fuel (utf8Encode s) = s := by
  -- one character a turn: its bytes come first, so they are what is decoded
  induction s generalizing fuel with
  | nil => cases fuel <;> rfl
  | cons c s ih =>
    have step : utf8Encode (c :: s) = String.utf8EncodeChar c ++ utf8Encode s := List.flatMap_cons
    have size : (String.utf8EncodeChar c).length = c.utf8Size := String.length_utf8EncodeChar c
    have first : (utf8Encode (c :: s)).toByteArray.utf8DecodeChar? 0 = some c := by
      rw [step, List.toByteArray_append]
      exact ByteArray.utf8DecodeChar?_utf8EncodeChar_append
    have rest : (utf8Encode (c :: s)).drop c.utf8Size = utf8Encode s := by
      rw [step, ← size, List.drop_left]
    have positive := c.utf8Size_pos
    rw [step, List.length_append, size] at enough
    obtain ⟨b, bytes, shape⟩ : ∃ b bytes, utf8Encode (c :: s) = b :: bytes := by
      cases shape : utf8Encode (c :: s) with
      | nil => simp [step, String.utf8EncodeChar_ne_nil] at shape
      | cons b bytes => exact ⟨b, bytes, rfl⟩
    cases fuel with
    | zero => omega
    | succ fuel =>
      rw [shape] at first rest ⊢
      rw [decodeWith, first]
      dsimp only
      rw [rest, ih (by omega)]

theorem utf8Decode_utf8Encode (s : List Char) : utf8Decode (utf8Encode s) = s :=
  decodeWith_utf8Encode (Nat.le_refl _)

/-! ### Percent encoding -/

def hexDigit (n : Fin 16) : UInt8 := if n < 10 then 0x30 + .ofNat n else 0x37 + .ofNat n

def hexValue (b : UInt8) : Option Nat :=
  if 0x30 ≤ b ∧ b ≤ 0x39 then some (b.toNat - 0x30)
  else if 0x41 ≤ b ∧ b ≤ 0x46 then some (b.toNat - 0x37)
  else if 0x61 ≤ b ∧ b ≤ 0x66 then some (b.toNat - 0x57)
  else none

/-- Letters, digits, `*`, `-`, `.` and `_`. -/
def isUnreserved (b : UInt8) : Bool :=
  (0x30 ≤ b && b ≤ 0x39) || (0x41 ≤ b && b ≤ 0x5A) || (0x61 ≤ b && b ≤ 0x7A) ||
    [0x2A, 0x2D, 0x2E, 0x5F].contains b

/-- A space is written as a plus. -/
def encodeByte (b : UInt8) : Bytes :=
  if b = 0x20 then [0x2B]
  else if isUnreserved b then [b]
  else
    [0x25, hexDigit ⟨b.toNat / 16, by have := b.toNat_lt; omega⟩,
      hexDigit ⟨b.toNat % 16, by omega⟩]

/-- Two digits after a percent sign; a percent sign without them stands for itself. -/
def percentDecode : Bytes → Bytes
  | b :: high :: low :: rest =>
    if b = 0x25 then
      match hexValue high, hexValue low with
      | some h, some l => .ofNat (16 * h + l) :: percentDecode rest
      -- `%zz` is text, not an error
      | _, _ => b :: percentDecode (high :: low :: rest)
    else b :: percentDecode (high :: low :: rest)
  | bytes => bytes

def plusToSpace (b : UInt8) : UInt8 := if b = 0x2B then 0x20 else b

theorem hexValue_hexDigit : ∀ n : Fin 16, hexValue (hexDigit n) = some n.val := by decide

theorem plusToSpace_hexDigit : ∀ n : Fin 16, plusToSpace (hexDigit n) = hexDigit n := by decide

theorem percentDecode_of_ne {b : UInt8} (other : b ≠ 0x25) (rest : Bytes) :
    percentDecode (b :: rest) = b :: percentDecode rest := by
  match rest with
  | [] => rfl
  | [c] => rfl
  | c :: d :: rest => rw [percentDecode, if_neg other]

theorem percentDecode_encodeByte (b : UInt8) (rest : Bytes) :
    percentDecode ((encodeByte b).map plusToSpace ++ rest) = b :: percentDecode rest := by
  unfold encodeByte
  split
  next space =>
    subst space
    exact percentDecode_of_ne (by decide) rest
  split
  next plain =>
    -- neither the percent sign nor the plus is unreserved, so the byte is read as itself
    have marks : b ≠ 0x25 ∧ b ≠ 0x2B := by
      constructor
      · rintro rfl
        revert plain
        decide
      · rintro rfl
        revert plain
        decide
    rw [List.map_singleton, plusToSpace, if_neg marks.2]
    exact percentDecode_of_ne marks.1 rest
  next =>
    simp only [List.map_cons, List.map_nil, plusToSpace_hexDigit, List.cons_append, List.nil_append]
    rw [show plusToSpace 0x25 = 0x25 from rfl, percentDecode, if_pos rfl]
    simp only [hexValue_hexDigit, Nat.div_add_mod, UInt8.ofNat_toNat]

theorem percentDecode_flatMap (bytes : Bytes) :
    percentDecode ((bytes.flatMap encodeByte).map plusToSpace) = bytes := by
  induction bytes with
  | nil => rfl
  | cons b bytes ih =>
    rw [List.flatMap_cons, List.map_append, percentDecode_encodeByte, ih]

/-! ### Components -/

def encode (s : String) : Bytes := (utf8Encode s.toList).flatMap encodeByte

def decode (bytes : Bytes) : String :=
  .ofList (utf8Decode (percentDecode (bytes.map plusToSpace)))

theorem decode_encode (s : String) : decode (encode s) = s := by
  rw [decode, encode, percentDecode_flatMap, utf8Decode_utf8Encode, String.ofList_toList]

/-- The bytes of a component: unreserved ones, the plus and the percent sign. -/
def isWritten (b : UInt8) : Bool := isUnreserved b || [0x25, 0x2B].contains b

theorem isWritten_hexDigit : ∀ n : Fin 16, isWritten (hexDigit n) = true := by decide

theorem isWritten_of_mem_encode {s : String} {b : UInt8} (member : b ∈ encode s) :
    isWritten b = true := by
  obtain ⟨source, -, written⟩ := List.mem_flatMap.mp member
  unfold encodeByte at written
  split at written
  · cases List.mem_singleton.mp written
    rfl
  split at written
  next plain =>
    cases List.mem_singleton.mp written
    simp [isWritten, plain]
  next =>
    simp only [List.mem_cons, List.not_mem_nil, or_false] at written
    rcases written with rfl | rfl | rfl
    · rfl
    · exact isWritten_hexDigit _
    · exact isWritten_hexDigit _

/-! ### Lists of parameters -/

abbrev Params := List (String × String)

/-- The name ends at the first equals sign. -/
def parsePair (bytes : Bytes) : String × String :=
  (decode (bytes.takeWhile (· ≠ 0x3D)), decode ((bytes.dropWhile (· ≠ 0x3D)).drop 1))

/-- The pieces between ampersands, but for empty ones. -/
def parse (bytes : Bytes) : Params := ((bytes.splitOn 0x26).filter (· ≠ [])).map parsePair

def serializePair (p : String × String) : Bytes := encode p.1 ++ 0x3D :: encode p.2

def serialize (params : Params) : Bytes := [0x26].intercalate (params.map serializePair)

theorem parsePair_serializePair (p : String × String) : parsePair (serializePair p) = p := by
  -- no encoded byte is an equals sign: the first one is the separator
  have name : ∀ b ∈ encode p.1, decide (b ≠ 0x3D) = true := by
    intro b member
    have written := isWritten_of_mem_encode member
    apply decide_eq_true
    rintro rfl
    revert written
    decide
  rw [parsePair, serializePair, List.takeWhile_append_of_pos name, List.dropWhile_append_of_pos name]
  simp [decode_encode]

theorem serializePair_ne_nil (p : String × String) : serializePair p ≠ [] := by
  simp [serializePair]

theorem isWritten_of_mem_serializePair {p : String × String} {b : UInt8}
    (member : b ∈ serializePair p) : isWritten b = true ∨ b = 0x3D := by
  rcases List.mem_append.mp member with name | value
  · exact .inl (isWritten_of_mem_encode name)
  rcases List.mem_cons.mp value with rfl | value
  · exact .inr rfl
  · exact .inl (isWritten_of_mem_encode value)

theorem parse_serialize (params : Params) : parse (serialize params) = params := by
  by_cases empty : params = []
  · subst empty
    rfl
  -- no pair has an ampersand in it, and none is empty
  have pieces : (serialize params).splitOn 0x26 = params.map serializePair := by
    refine List.splitOn_intercalate 0x26 (fun piece member ampersand => ?_) (by simpa using empty)
    obtain ⟨p, -, rfl⟩ := List.mem_map.mp member
    rcases isWritten_of_mem_serializePair ampersand with written | equals
    · revert written
      decide
    · revert equals
      decide
  have filled : (params.map serializePair).filter (· ≠ []) = params.map serializePair := by
    rw [List.filter_eq_self]
    intro piece member
    obtain ⟨p, -, rfl⟩ := List.mem_map.mp member
    exact decide_eq_true (serializePair_ne_nil p)
  rw [parse, pieces, filled, List.map_map]
  simp [Function.comp_def, parsePair_serializePair]

/-! ### Query strings -/

/-- `new URLSearchParams(s)`: a question mark in front is left out. -/
def ofString (s : String) : Params :=
  parse (utf8Encode (match s.toList with
    | '?' :: rest => rest
    | s => s))

def toString (params : Params) : String :=
  .ofList ((serialize params).map fun b => Char.ofNat b.toNat)

theorem mem_intercalate {pieces : List Bytes} {b c : UInt8}
    (member : b ∈ [c].intercalate pieces) : b = c ∨ ∃ piece ∈ pieces, b ∈ piece := by
  induction pieces with
  | nil => cases member
  | cons piece pieces ih =>
    by_cases last : pieces = []
    · subst last
      rw [List.intercalate_singleton] at member
      exact .inr ⟨piece, List.mem_cons_self, member⟩
    rw [List.intercalate_cons_of_ne_nil last] at member
    rcases List.mem_append.mp member with first | rest
    · rcases List.mem_append.mp first with own | separator
      · exact .inr ⟨piece, List.mem_cons_self, own⟩
      · exact .inl (List.mem_singleton.mp separator)
    · obtain same | ⟨piece', member', own⟩ := ih rest
      · exact .inl same
      · exact .inr ⟨piece', List.mem_cons_of_mem _ member', own⟩

theorem ascii_of_isWritten : ∀ n : Fin 256, isWritten (.ofFin n) = true →
    n.val < 128 ∧ n.val ≠ 0x3F := by
  decide +kernel

/-- What is serialized is ASCII without question marks. -/
theorem of_mem_serialize {params : Params} {b : UInt8} (member : b ∈ serialize params) :
    b.toNat < 128 ∧ b.toNat ≠ 0x3F := by
  rcases mem_intercalate member with rfl | ⟨piece, source, own⟩
  · decide
  obtain ⟨p, -, rfl⟩ := List.mem_map.mp source
  rcases isWritten_of_mem_serializePair own with written | rfl
  · exact ascii_of_isWritten b.toFin written
  · decide

theorem utf8EncodeChar_ofNat : ∀ n : Fin 128,
    String.utf8EncodeChar (Char.ofNat n.val) = [UInt8.ofNat n.val] := by
  decide +kernel

theorem utf8Encode_toString (params : Params) :
    utf8Encode (toString params).toList = serialize params := by
  have ascii : ∀ bytes : Bytes, (∀ b ∈ bytes, b.toNat < 128) →
      utf8Encode (bytes.map fun b => Char.ofNat b.toNat) = bytes := by
    intro bytes small
    induction bytes with
    | nil => rfl
    | cons b bytes ih =>
      have first : String.utf8EncodeChar (Char.ofNat b.toNat) = [b] := by
        rw [utf8EncodeChar_ofNat ⟨b.toNat, small b List.mem_cons_self⟩, UInt8.ofNat_toNat]
      rw [List.map_cons, utf8Encode, List.flatMap_cons, first]
      exact congrArg (b :: ·) (ih fun c member => small c (List.mem_cons_of_mem _ member))
  rw [toString, String.toList_ofList]
  exact ascii _ fun b member => (of_mem_serialize member).1

/-- A query string that was serialized is read back. -/
theorem ofString_toString (params : Params) : ofString (toString params) = params := by
  -- `ofString` would take a question mark in front away, but nothing serialized has one
  have plain : ∀ rest, (toString params).toList ≠ '?' :: rest := by
    intro rest shape
    have first : utf8Encode (toString params).toList = 0x3F :: utf8Encode rest := by
      rw [shape]
      rfl
    rw [utf8Encode_toString] at first
    exact (of_mem_serialize (first ▸ List.mem_cons_self)).2 rfl
  unfold ofString
  split
  next rest shape => exact absurd shape (plain rest)
  next => rw [utf8Encode_toString, parse_serialize]

/-! ### Operations -/

def has (params : Params) (name : String) : Bool := params.any fun p => decide (p.1 = name)

/-- The first parameter of this name gets the value, the others are removed. -/
def set (name value : String) : Params → Params
  | [] => []
  | p :: params =>
    if p.1 = name then (name, value) :: params.filter fun p => decide (p.1 ≠ name)
    else p :: set name value params

/-- The values of a name. -/
def getAll (params : Params) (name : String) : List String :=
  (params.filter fun p => decide (p.1 = name)).map (·.2)

/-- The name does not occur, or once and with this value. -/
def Blanked (value : String) (params : Params) (name : String) : Prop :=
  getAll params name = [] ∨ getAll params name = [value]

section Blanking

variable {params : Params} {names : List String} {name other value : String}

theorem getAll_cons_of_ne {p : String × String} (differs : p.1 ≠ name) :
    getAll (p :: params) name = getAll params name := by
  simp [getAll, differs]

theorem getAll_filter_ne (differs : other ≠ name) :
    getAll (params.filter fun p => decide (p.1 ≠ name)) other = getAll params other := by
  rw [getAll, List.filter_filter, getAll]
  congr 1
  refine List.filter_congr fun p _ => ?_
  by_cases same : p.1 = other
  · simp [same, differs]
  · simp [same]

theorem has_eq_true : has params name = true ↔ getAll params name ≠ [] := by
  simp [has, getAll]

theorem getAll_set_of_ne (differs : other ≠ name) :
    getAll (set name value params) other = getAll params other := by
  induction params with
  | nil => rfl
  | cons p params ih =>
    unfold set
    split
    next own =>
      rw [getAll_cons_of_ne (Ne.symm differs), getAll_filter_ne differs,
        getAll_cons_of_ne (by simpa [own] using Ne.symm differs)]
    next =>
      by_cases same : p.1 = other
      · simpa [getAll, same] using ih
      · rw [getAll_cons_of_ne same, getAll_cons_of_ne same, ih]

theorem getAll_set (occurs : has params name = true) : getAll (set name value params) name = [value] := by
  induction params with
  | nil => cases occurs
  | cons p params ih =>
    unfold set
    split
    next => simp [getAll, List.filter_filter]
    next differs =>
      rw [getAll_cons_of_ne differs]
      exact ih (by simpa [has, differs] using occurs)

/-- A parameter that has the value already, and once only, is left alone. -/
theorem set_eq_self (once : getAll params name = [value]) : set name value params = params := by
  induction params with
  | nil => rfl
  | cons p params ih =>
    unfold set
    split
    next own =>
      have rest : p.2 = value ∧ getAll params name = [] := by
        simpa [getAll, own] using once
      -- the value that was found is the only one, so nothing behind it is removed
      have none : params.filter (fun p => decide (p.1 ≠ name)) = params := by
        rw [List.filter_eq_self]
        intro q member
        have absent := rest.2
        simp only [getAll, List.map_eq_nil_iff, List.filter_eq_nil_iff, decide_eq_true_eq] at absent
        exact decide_eq_true (absent q member)
      rw [none, ← rest.1, ← own]
    next differs =>
      rw [getAll_cons_of_ne differs] at once
      rw [ih once]

/-- One turn of a loop that blanks names. -/
def blank (value : String) (params : Params) (name : String) : Params :=
  if has params name then set name value params else params

theorem blanked_blank : Blanked value (blank value params name) name := by
  unfold blank
  split
  next occurs => exact .inr (getAll_set occurs)
  next absent =>
    rw [has_eq_true, not_not] at absent
    exact .inl absent

theorem Blanked.blank (blanked : Blanked value params other) :
    Blanked value (blank value params name) other := by
  by_cases same : other = name
  · subst same
    exact blanked_blank
  unfold FormUrlencoded.blank
  split
  · rwa [Blanked, getAll_set_of_ne same]
  · exact blanked

theorem Blanked.foldl (blanked : Blanked value params other) :
    Blanked value (names.foldl (FormUrlencoded.blank value) params) other := by
  induction names generalizing params with
  | nil => exact blanked
  | cons name names ih => exact ih blanked.blank

theorem blanked_foldl (member : name ∈ names) :
    Blanked value (names.foldl (blank value) params) name := by
  induction names generalizing params with
  | nil => cases member
  | cons first names ih =>
    rcases List.mem_cons.mp member with rfl | later
    -- blanked in its own turn, and no later turn undoes it
    · exact blanked_blank.foldl
    · exact ih later

theorem blank_eq_self (blanked : Blanked value params name) : blank value params name = params := by
  unfold blank
  split
  next occurs => exact set_eq_self (blanked.resolve_left (has_eq_true.mp occurs))
  next => rfl

/-- Blanking changes nothing exactly where every name is blanked already. -/
theorem foldl_blank_eq_self :
    names.foldl (blank value) params = params ↔ ∀ name ∈ names, Blanked value params name := by
  constructor
  · intro same name member
    rw [← same]
    exact blanked_foldl member
  · intro blanked
    induction names with
    | nil => rfl
    | cons name names ih =>
      rw [List.foldl_cons, blank_eq_self (blanked name List.mem_cons_self)]
      exact ih fun name member => blanked name (List.mem_cons_of_mem _ member)

/-- What blanking leaves of a list of parameters: a name that is blanked stays where it occurs first,
with the value. -/
def blankFirst (value : String) (names seen : List String) : Params → Params
  | [] => []
  | p :: params =>
    if p.1 ∈ names then
      if p.1 ∈ seen then blankFirst value names seen params
      else (p.1, value) :: blankFirst value names (p.1 :: seen) params
    else p :: blankFirst value names seen params

theorem blank_eq_set : blank value params name = set name value params := by
  unfold blank
  split
  · rfl
  next absent =>
    induction params with
    | nil => rfl
    | cons p params ih =>
      simp only [has, List.any_cons, Bool.or_eq_true, decide_eq_true_eq, not_or] at absent
      rw [set, if_neg absent.1, ← ih absent.2]

/-- A name that has been seen is left out. -/
theorem blankFirst_seen {seen seen' : List String} (known : name ∈ seen)
    (same : ∀ other, other ≠ name → (other ∈ seen ↔ other ∈ seen')) :
    blankFirst value (name :: names) seen params =
      blankFirst value names seen' (params.filter fun p => decide (p.1 ≠ name)) := by
  induction params generalizing seen seen' with
  | nil => rfl
  | cons p params ih =>
    by_cases own : p.1 = name
    · rw [blankFirst, if_pos (by simp [own]), if_pos (own ▸ known), ih known same]
      simp [own]
    · rw [List.filter_cons_of_pos (by simpa using own), blankFirst, blankFirst]
      simp only [List.mem_cons, own, false_or, same p.1 own]
      split
      · split
        · exact ih known same
        · congr 1
          refine ih (List.mem_cons_of_mem _ known) fun other differs => ?_
          rw [List.mem_cons, List.mem_cons, same other differs]
      · rw [ih known same]

theorem blankFirst_set {seen : List String} (unseen : name ∉ seen) :
    blankFirst value names seen (set name value params) =
      blankFirst value (name :: names) seen params := by
  induction params generalizing seen with
  | nil => rfl
  | cons p params ih =>
    rw [set, blankFirst.eq_2 value (name :: names)]
    by_cases own : p.1 = name
    · rw [if_pos own, if_pos (by simp [own]), if_neg (own ▸ unseen), own, blankFirst]
      dsimp only
      -- the names that follow may have it again, and see it then
      split
      · rw [blankFirst_seen List.mem_cons_self fun _ _ => Iff.rfl]
      · have others : ∀ other, other ≠ name → (other ∈ name :: seen ↔ other ∈ seen) := by
          intro other differs
          simp [differs]
        rw [blankFirst_seen List.mem_cons_self others]
    · rw [if_neg own, blankFirst]
      simp only [List.mem_cons, own, false_or]
      split
      · split
        · exact ih unseen
        · rw [ih (by simp [Ne.symm own, unseen])]
      · rw [ih unseen]

theorem blankFirst_none : blankFirst value [] [] params = params := by
  induction params with
  | nil => rfl
  | cons p params ih => rw [blankFirst, if_neg List.not_mem_nil, ih]

/-- The loop over the names blanks them all at once. -/
theorem foldl_blank_eq : names.foldl (blank value) params = blankFirst value names [] params := by
  induction names generalizing params with
  | nil => exact blankFirst_none.symm
  | cons name names ih =>
    rw [List.foldl_cons, ih, blank_eq_set, blankFirst_set List.not_mem_nil]

end Blanking

end FormUrlencoded
