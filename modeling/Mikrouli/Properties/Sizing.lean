import Mathlib.Algebra.Order.Ring.Abs
import Mathlib.Tactic.Linarith
import Mathlib.Tactic.NormNum
import Mathlib.Tactic.Ring
import Mikrouli.Model.JaegerPolicy

/-! Which Deployments of Jaeger pass their policy.

A rule says nothing where one of its expressions is undefined: of a field that is missing, of a quantity
in a unit the policy does not read and of a duration in more than one unit. Each bound is a check that
denies what it reads out of its bound, and overlooks the rest of what is not in it. -/

namespace Mikrouli.JaegerPolicy

open Rego Quantities

variable {B : Builtins}

/-! ### Memory -/

/-- The bytes a field of memory asks for. -/
def memoryBytes : Term → Option ℚ
  | .string s => quantity? s.toList
  | .number n => some n
  | _ => none

def AtLeast (floor : ℚ) (field : Option Term) : Prop :=
  ∃ memory bytes, field = some memory ∧ memoryBytes memory = some bytes ∧ floor ≤ bytes

/-- The units the policy reads. -/
def readUnits : List (String × ℚ) := [("Gi", 1073741824), ("Mi", 1048576), ("Ki", 1024)]

/-- What the policy takes for a number of bytes. -/
inductive ReadsBytes (B : Builtins) : Term → ℚ → Prop where
  | null : ReadsBytes B .null 0
  | bool (b : Bool) : ReadsBytes B (.bool b) (if b then 1 else 0)
  | number (n : ℚ) : ReadsBytes B (.number n) n
  | plain {s : String} {n : ℚ} (read : B.parseNumber s.toList = some n) : ReadsBytes B (.string s) n
  | unit {s : String} {t : List Char} {suffix : String} {k n : ℚ} (known : (suffix, k) ∈ readUnits)
      (text : s.toList = t ++ suffix.toList) (read : B.parseNumber t = some n) :
      ReadsBytes B (.string s) (n * k)

/-- Without a unit, in Ki, Mi or Gi, or with a power of ten. -/
def Readable (s : List Char) : Prop :=
  (exponent? (unitOf s)).isSome ∨ ∃ u ∈ readUnits, unitOf s = u.1.toList

/-- What of a quantity has to be a number for the policy. -/
def readPart (s : List Char) : List Char :=
  if (exponent? (unitOf s)).isSome then s else numberOf s

/-- A field that does not ask for its floor, and that the policy does not read as below it. -/
inductive MemoryOverlooked (B : Builtins) (floor : ℚ) : Option Term → Prop where
  | missing : MemoryOverlooked B floor none
  | unit {s : String} {bytes : ℚ} (quantity : quantity? s.toList = some bytes) (small : bytes < floor)
      (unread : ¬Readable s.toList) : MemoryOverlooked B floor (some (.string s))
  | range {s : String} {bytes : ℚ} (quantity : quantity? s.toList = some bytes) (small : bytes < floor)
      (readable : Readable s.toList) (beyond : B.parseNumber (readPart s.toList) = none) :
      MemoryOverlooked B floor (some (.string s))
  | unparsable {memory : Term} (no : memoryBytes memory = none)
      (unread : ∀ bytes, ReadsBytes B memory bytes → floor ≤ bytes) :
      MemoryOverlooked B floor (some memory)

def MemoryDenied (B : Builtins) (floor : ℚ) (field : Option Term) : Prop :=
  ∃ memory bytes, field = some memory ∧ ReadsBytes B memory bytes ∧ bytes < floor

theorem inUnit_eq_some {s suffix : String} {k v : ℚ} :
    inUnit B (.string s) suffix k = some v ↔
      ∃ t n, s.toList = t ++ suffix.toList ∧ B.parseNumber t = some n ∧ n * k = v := by
  constructor
  · intro read
    obtain ⟨ends, read⟩ := Option.ite_none_right_eq_some.mp read
    obtain ⟨t, text⟩ := exists_of_endsWith ends
    rw [toNumber_trimSuffix B text] at read
    obtain ⟨n, number, value⟩ := Option.map_eq_some_iff.mp read
    exact ⟨t, n, text, number, value⟩
  · rintro ⟨t, n, text, number, rfl⟩
    rw [inUnit, if_pos (endsWith_append text), toNumber_trimSuffix B text, number]
    rfl

/-- No number ends in a unit. -/
theorem parseNumber_append (documented : B.Documented) {t u : List Char} {c : Char}
    (last : u.getLast? = some c) (letter : isDecimalChar c = false) : B.parseNumber (t ++ u) = none := by
  by_contra read
  obtain ⟨n, read⟩ := Option.ne_none_iff_exists'.mp read
  exact not_endsIn_append last letter (documented.last _ _ read)

theorem last_of_readUnits {suffix : String} {k : ℚ} (known : (suffix, k) ∈ readUnits) :
    suffix.toList.getLast? = some 'i' := by
  have all : ∀ u ∈ readUnits, u.1.toList.getLast? = some 'i' := by decide +kernel
  exact all (suffix, k) known

/-- One text has one of the units. -/
theorem unit_unique {s t t' : List Char} {u u' : String × ℚ} (known : u ∈ readUnits)
    (known' : u' ∈ readUnits) (text : s = t ++ u.1.toList) (text' : s = t' ++ u'.1.toList) :
    t = t' ∧ u = u' := by
  have two : ∀ u ∈ readUnits, u.1.toList.length = 2 := by decide +kernel
  have determined : ∀ u ∈ readUnits, ∀ u' ∈ readUnits, u.1.toList = u'.1.toList → u = u' := by
    decide +kernel
  obtain ⟨before, unit⟩ := List.append_inj' (text.symm.trans text')
    ((two u known).trans (two u' known').symm)
  exact ⟨before, determined u known u' known' unit⟩

theorem inUnit_eq_none_of_ne {s : String} {t : List Char} {suffix suffix' : String} {k k' : ℚ}
    (known : (suffix, k) ∈ readUnits) (known' : (suffix', k') ∈ readUnits)
    (text : s.toList = t ++ suffix.toList) (other : suffix ≠ suffix') :
    inUnit B (.string s) suffix' k' = none := by
  by_contra read
  obtain ⟨v, read⟩ := Option.ne_none_iff_exists'.mp read
  obtain ⟨t', n, text', -, -⟩ := inUnit_eq_some.mp read
  exact other (congrArg Prod.fst (unit_unique known known' text text').2)

theorem inUnit_eq_none_of_parseNumber (documented : B.Documented) {s suffix : String} {k v n : ℚ}
    (known : (suffix, k) ∈ readUnits) (read : B.parseNumber s.toList = some n) :
    inUnit B (.string s) suffix v = none := by
  by_contra unit
  obtain ⟨_, unit⟩ := Option.ne_none_iff_exists'.mp unit
  obtain ⟨t, _, text, -, -⟩ := inUnit_eq_some.mp unit
  rw [text, parseNumber_append documented (last_of_readUnits known) rfl] at read
  cases read

theorem readsBytes_of_quantityToBytes {memory : Term} {bytes : ℚ}
    (converted : quantityToBytes B memory = some bytes) : ReadsBytes B memory bytes := by
  cases memory with
  | null =>
    cases converted
    exact .null
  | bool b =>
    cases converted
    exact .bool b
  | number n =>
    cases converted
    exact .number _
  | string s =>
    have unit {suffix : String} {k : ℚ} (known : (suffix, k) ∈ readUnits)
        (read : inUnit B (.string s) suffix k = some bytes) : ReadsBytes B (.string s) bytes := by
      obtain ⟨t, n, text, number, rfl⟩ := inUnit_eq_some.mp read
      exact .unit known text number
    rcases Option.or_eq_some_iff.mp converted with gi | ⟨-, converted⟩
    · exact unit (by decide +kernel) gi
    rcases Option.or_eq_some_iff.mp converted with mi | ⟨-, converted⟩
    · exact unit (by decide +kernel) mi
    rcases Option.or_eq_some_iff.mp converted with ki | ⟨-, converted⟩
    · exact unit (by decide +kernel) ki
    exact .plain converted
  | array items => cases converted
  | object fields => cases converted

/-- A value that can be read takes the alternative that reads it: the ones before it are undefined. -/
theorem quantityToBytes_of_readsBytes (documented : B.Documented) {memory : Term} {bytes : ℚ}
    (reads : ReadsBytes B memory bytes) : quantityToBytes B memory = some bytes := by
  cases reads with
  | null | bool b | number n => rfl
  | plain read =>
    have none_of (suffix : String) (k : ℚ) (known : (suffix, k) ∈ readUnits) :=
      inUnit_eq_none_of_parseNumber (v := k) documented known read
    rw [quantityToBytes, none_of _ _ (by decide +kernel), none_of _ _ (by decide +kernel),
      none_of _ _ (by decide +kernel)]
    exact read
  | @unit s t suffix k n known text read =>
    have here : inUnit B (.string s) suffix k = some (n * k) :=
      inUnit_eq_some.mpr ⟨t, n, text, read, rfl⟩
    have none_of (suffix : String) (k : ℚ) (known' : (suffix, k) ∈ readUnits) :=
      inUnit_eq_none_of_ne (B := B) known known' text
    simp only [readUnits, List.mem_cons, Prod.mk.injEq, List.not_mem_nil, or_false] at known
    rcases known with ⟨rfl, rfl⟩ | ⟨rfl, rfl⟩ | ⟨rfl, rfl⟩
    · rw [quantityToBytes, here]
      rfl
    · rw [quantityToBytes, none_of "Gi" _ (by decide +kernel) (by decide), here]
      rfl
    · rw [quantityToBytes, none_of "Gi" _ (by decide +kernel) (by decide),
        none_of "Mi" _ (by decide +kernel) (by decide), here]
      rfl

/-- What the conversion makes of a value, by the form of the value. -/
theorem quantityToBytes_iff (documented : B.Documented) {memory : Term} {bytes : ℚ} :
    quantityToBytes B memory = some bytes ↔ ReadsBytes B memory bytes :=
  ⟨readsBytes_of_quantityToBytes, quantityToBytes_of_readsBytes documented⟩

theorem quantity?_parts {s : List Char} {v : ℚ} (quantity : quantity? s = some v) :
    ∃ n k, number? (numberOf s) = some n ∧ (exponent? (unitOf s)).or (units.lookup (unitOf s)) = some k ∧
      n * k = v := by
  obtain ⟨n, number, quantity⟩ := Option.bind_eq_some_iff.mp quantity
  obtain ⟨k, unit, value⟩ := Option.bind_eq_some_iff.mp quantity
  exact ⟨n, k, number, unit, Option.some.inj value⟩

/-- Its units are no powers of ten. -/
theorem exponent?_of_readUnits {u : String × ℚ} (known : u ∈ readUnits) :
    exponent? u.1.toList = none := by
  have all : ∀ u ∈ readUnits, exponent? u.1.toList = none := by decide +kernel
  exact all u known

theorem letters_of_readUnits {suffix : String} {k : ℚ} (known : (suffix, k) ∈ readUnits) :
    ∀ c ∈ suffix.toList, isNumberChar c = false := by
  have all : ∀ u ∈ readUnits, u.1.toList.all (fun c => !isNumberChar c) = true := by decide +kernel
  intro c member
  exact Bool.eq_false_of_not_eq_true' (List.all_eq_true.mp (all (suffix, k) known) c member)

/-- A text that the policy reads in a unit has that unit. -/
theorem suffix_unitOf_of_readUnits {s t : List Char} {suffix : String} {k : ℚ}
    (known : (suffix, k) ∈ readUnits) (text : s = t ++ suffix.toList) : suffix.toList <:+ unitOf s :=
  suffix_unitOf ⟨t, text.symm⟩ (letters_of_readUnits known)

/-- A quantity with a power of ten, or without a unit, is read as it is. -/
theorem readsBytes_of_exponent (documented : B.Documented) {s : String} {v bytes : ℚ}
    (quantity : quantity? s.toList = some v) (exponent : (exponent? (unitOf s.toList)).isSome) :
    ReadsBytes B (.string s) bytes ↔ (B.parseNumber (readPart s.toList)).isSome ∧ bytes = v := by
  obtain ⟨n, k, number, unit, value⟩ := quantity?_parts quantity
  obtain ⟨e, power⟩ := Option.isSome_iff_exists.mp exponent
  have numeral : numeral? s.toList = some v := by
    rw [power] at unit
    cases unit
    rw [numeral?, number, power]
    exact congrArg some value
  rw [readPart, if_pos exponent]
  constructor
  · intro reads
    cases reads with
    | plain read => exact ⟨Option.isSome_of_eq_some read, documented.exact _ _ _ numeral read⟩
    | unit known text read =>
      have ends := suffix_unitOf_of_readUnits known text
      have last := last_of_readUnits known
      rcases (exponent?_isSome power).2 with bare | digit
      · rw [bare] at ends
        rw [List.suffix_nil.mp ends] at last
        cases last
      · obtain ⟨before, whole⟩ := ends
        rw [← whole] at digit
        exact absurd digit (not_endsIn_append last rfl)
  · rintro ⟨read, rfl⟩
    obtain ⟨w, read⟩ := Option.isSome_iff_exists.mp read
    rw [← documented.exact _ _ _ numeral read]
    exact .plain read

/-- A quantity in one of the units is read as it is. -/
theorem readsBytes_of_unit (documented : B.Documented) {s : String} {u : String × ℚ} {v bytes : ℚ}
    (quantity : quantity? s.toList = some v) (known : u ∈ readUnits)
    (here : unitOf s.toList = u.1.toList) :
    ReadsBytes B (.string s) bytes ↔ (B.parseNumber (readPart s.toList)).isSome ∧ bytes = v := by
  obtain ⟨n, k, number, unit, rfl⟩ := quantity?_parts quantity
  have plain := exponent?_of_readUnits known
  have factor : k = u.2 := by
    have all : ∀ u ∈ readUnits, units.lookup u.1.toList = some u.2 := by decide +kernel
    rw [here, plain, Option.none_or, all u known] at unit
    exact (Option.some.inj unit).symm
  subst factor
  have text : s.toList = numberOf s.toList ++ u.1.toList := by
    rw [← here, numberOf_append_unitOf]
  rw [readPart, if_neg (by simp [here, plain])]
  constructor
  · intro reads
    cases reads with
    | plain read =>
      rw [text, parseNumber_append documented (last_of_readUnits known) rfl] at read
      cases read
    | unit known' text' read =>
      obtain ⟨rfl, rfl⟩ := unit_unique known known' text text'
      rw [documented.exact _ _ _ (numeral?_of_number? number) read]
      exact ⟨Option.isSome_of_eq_some read, rfl⟩
  · rintro ⟨read, rfl⟩
    obtain ⟨w, read⟩ := Option.isSome_iff_exists.mp read
    rw [← documented.exact _ _ _ (numeral?_of_number? number) read]
    exact .unit known text read

/-- A quantity in another unit is not read. -/
theorem not_readsBytes (documented : B.Documented) {s : String} {v bytes : ℚ}
    (quantity : quantity? s.toList = some v) (unread : ¬Readable s.toList) :
    ¬ReadsBytes B (.string s) bytes := by
  obtain ⟨n, k, number, unit, -⟩ := quantity?_parts quantity
  have plain : exponent? (unitOf s.toList) = none := by
    by_contra power
    exact unread (.inl (Option.isSome_iff_ne_none.mpr power))
  rw [plain, Option.none_or] at unit
  have known := mem_of_lookup unit
  intro reads
  cases reads with
  | plain read =>
    have letters : ∀ u ∈ units, u.1.getLast?.any (fun c => !isDecimalChar c) = true := by
      decide +kernel
    obtain ⟨c, last, letter⟩ := (Option.any_eq_true _ _).mp (letters _ known)
    rw [← numberOf_append_unitOf s.toList,
      parseNumber_append documented last (Bool.eq_false_of_not_eq_true' letter)] at read
    cases read
  | unit known' text read =>
    have whole : ∀ u ∈ units, ∀ u' ∈ readUnits, u'.1.toList <:+ u.1 → u.1 = u'.1.toList := by
      decide +kernel
    exact unread (.inr ⟨_, known', whole _ known _ known' (suffix_unitOf_of_readUnits known' text)⟩)

theorem readsBytes_iff (documented : B.Documented) {s : String} {v bytes : ℚ}
    (quantity : quantity? s.toList = some v) (readable : Readable s.toList) :
    ReadsBytes B (.string s) bytes ↔ (B.parseNumber (readPart s.toList)).isSome ∧ bytes = v := by
  rcases readable with exponent | ⟨u, known, here⟩
  · exact readsBytes_of_exponent documented quantity exponent
  · exact readsBytes_of_unit documented quantity known here

theorem memoryOverlooked_of (documented : B.Documented) {floor : ℚ} {field : Option Term}
    (low : ¬AtLeast floor field) (undenied : ¬MemoryDenied B floor field) :
    MemoryOverlooked B floor field := by
  cases field with
  | none => exact .missing
  | some memory =>
    have unread : ∀ bytes, ReadsBytes B memory bytes → floor ≤ bytes := fun bytes reads =>
      le_of_not_gt fun small => undenied ⟨memory, bytes, rfl, reads, small⟩
    cases asked : memoryBytes memory with
    | none => exact .unparsable asked unread
    | some bytes =>
      have small : bytes < floor := lt_of_not_ge fun enough => low ⟨memory, bytes, rfl, asked, enough⟩
      cases memory with
      | number n =>
        cases asked
        exact absurd (unread _ (.number _)) (not_le_of_gt small)
      | string s =>
        by_cases readable : Readable s.toList
        · refine .range asked small readable (Option.not_isSome_iff_eq_none.mp fun read => ?_)
          have reads := (readsBytes_iff documented asked readable).mpr ⟨read, rfl⟩
          exact absurd (unread bytes reads) (not_le_of_gt small)
        · exact .unit asked small readable
      | null | bool b | array items | object fields => cases asked

theorem not_atLeast {floor : ℚ} {field : Option Term} (overlooked : MemoryOverlooked B floor field) :
    ¬AtLeast floor field := by
  rintro ⟨memory, bytes, here, asked, enough⟩
  cases overlooked with
  | missing => cases here
  | unit quantity small _ | range quantity small _ _ =>
    cases here
    cases quantity.symm.trans asked
    exact absurd enough (not_le_of_gt small)
  | unparsable no _ =>
    cases here
    rw [no] at asked
    cases asked

theorem not_memoryDenied (documented : B.Documented) {floor : ℚ} {field : Option Term}
    (overlooked : MemoryOverlooked B floor field) : ¬MemoryDenied B floor field := by
  rintro ⟨memory, bytes, here, reads, low⟩
  cases overlooked with
  | missing => cases here
  | unit quantity _ unread =>
    cases here
    exact not_readsBytes documented quantity unread reads
  | range quantity _ readable beyond =>
    cases here
    have read := ((readsBytes_iff documented quantity readable).mp reads).1
    rw [beyond] at read
    cases read
  | unparsable _ unread =>
    cases here
    exact absurd (unread bytes reads) (not_le_of_gt low)

theorem memoryOverlooked_iff (documented : B.Documented) {floor : ℚ} {field : Option Term} :
    MemoryOverlooked B floor field ↔ ¬AtLeast floor field ∧ ¬MemoryDenied B floor field := by
  constructor
  · intro overlooked
    exact ⟨not_atLeast overlooked, not_memoryDenied documented overlooked⟩
  · rintro ⟨low, undenied⟩
    exact memoryOverlooked_of documented low undenied

theorem belowFloor_eq_nil (documented : B.Documented) {field : List String} {floor : ℚ}
    {format : String} {container : Term} :
    belowFloor B field floor format container = [] ↔ ¬MemoryDenied B floor (container.ref field) := by
  rw [belowFloor, Option.toList_eq_nil_iff, body_eq_none_iff]
  constructor
  · rintro silent ⟨memory, bytes, here, reads, small⟩
    exact silent memory bytes here ((quantityToBytes_iff documented).mpr reads) small
  · intro undenied memory bytes here converted small
    exact undenied ⟨memory, bytes, here, (quantityToBytes_iff documented).mp converted, small⟩

/-! ### Time to live -/

/-- The value that counts, of the last entry. -/
def ttlValue (container : Term) : Option Term :=
  (ttlEntries container).getLast?.bind (·.ref ["value"])

/-- A day, in nanoseconds. -/
def day : ℚ := 24 * 3600 * 10 ^ 9

def WithinDay (field : Option Term) : Prop :=
  ∃ s ns, field = some (.string s) ∧ duration? s.toList = some ns ∧ ns ≤ day

/-- What the policy takes for a number of minutes. -/
inductive ReadsMinutes (B : Builtins) : Term → ℚ → Prop where
  | hours {s : String} {t : List Char} {n : ℚ} (text : s.toList = t ++ ['h'])
      (read : B.parseNumber t = some n) : ReadsMinutes B (.string s) (n * 60)
  | minutes {s : String} {t : List Char} {n : ℚ} (text : s.toList = t ++ ['m'])
      (read : B.parseNumber t = some n) : ReadsMinutes B (.string s) n

/-- One number, of hours or of minutes. -/
def OneUnit (s : List Char) : Prop :=
  ∃ t u, s = t ++ [u] ∧ (u = 'h' ∨ u = 'm') ∧ (number? t).isSome

/-- A time to live that is not within a day, and that the policy does not read as longer. -/
inductive TtlOverlooked (B : Builtins) : Option Term → Prop where
  | missing : TtlOverlooked B none
  | spelling {s : String} {ns : ℚ} (duration : duration? s.toList = some ns) (long : day < ns)
      (other : ¬OneUnit s.toList) : TtlOverlooked B (some (.string s))
  | unparsable {value : Term} (no : ∀ s, value = .string s → duration? s.toList = none)
      (unread : ∀ minutes, ReadsMinutes B value minutes → minutes ≤ ttlCapMinutes) :
      TtlOverlooked B (some value)

def TtlDenied (B : Builtins) (field : Option Term) : Prop :=
  ∃ value minutes, field = some value ∧ ReadsMinutes B value minutes ∧ ttlCapMinutes < minutes

theorem durationToMinutes_iff {value : Term} {minutes : ℚ} :
    durationToMinutes B value = some minutes ↔ ReadsMinutes B value minutes := by
  constructor
  · intro converted
    cases value with
    | string s =>
      rcases Option.or_eq_some_iff.mp converted with hours | ⟨-, converted⟩
      · obtain ⟨t, n, text, read, rfl⟩ := inUnit_eq_some.mp hours
        exact .hours text read
      · obtain ⟨ends, read⟩ := Option.ite_none_right_eq_some.mp converted
        obtain ⟨t, text⟩ := exists_of_endsWith ends
        rw [toNumber_trimSuffix B text] at read
        exact .minutes text read
    | null | bool b | number n | array items | object fields => cases converted
  · intro reads
    cases reads with
    | @hours s t n text read =>
      have here : inUnit B (.string s) "h" 60 = some (n * 60) :=
        inUnit_eq_some.mpr ⟨t, n, text, read, rfl⟩
      rw [durationToMinutes, here]
      rfl
    | @minutes s t _ text read =>
      have notHours : inUnit B (.string s) "h" 60 = none := by
        by_contra hours
        obtain ⟨v, hours⟩ := Option.ne_none_iff_exists'.mp hours
        obtain ⟨t', _, text', -, -⟩ := inUnit_eq_some.mp hours
        have last := congrArg List.getLast? (text.symm.trans text')
        rw [List.getLast?_concat, show "h".toList = ['h'] from rfl, List.getLast?_concat] at last
        cases last
      rw [durationToMinutes, notHours, Option.none_or, if_pos (endsWith_append text),
        toNumber_trimSuffix B text, read]

/-- What is read before the unit of a duration is a number. -/
theorem isSome_of_parseNumber (documented : B.Documented) {s t : List Char} {u : Char} {ns n : ℚ}
    (duration : duration? s = some ns) (text : s = t ++ [u]) (unit : u = 'h' ∨ u = 'm')
    (read : B.parseNumber t = some n) : (number? t).isSome := by
  have notNumber : isNumberChar u = false := by rcases unit with rfl | rfl <;> rfl
  rw [text] at duration
  rcases duration?_append notNumber duration with ⟨n, k, number, -, -⟩ | ⟨c, member, letter⟩
  · exact Option.isSome_of_eq_some number
  · have inside := documented.characters _ _ read c member
    rw [isNumeralChar_of_mem_unitLetters letter] at inside
    cases inside

theorem lookup_hour : durationUnits.lookup ['h'] = some (3600 * 10 ^ 9) := by decide +kernel

theorem lookup_minute : durationUnits.lookup ['m'] = some (60 * 10 ^ 9) := by decide +kernel

/-- The number of a duration is in the range of a float. -/
theorem abs_lt_of_bounds {n k : ℚ} (one : 1 ≤ k) (bounds : -2 ^ 63 ≤ n * k ∧ n * k ≤ 2 ^ 63 - 1) :
    |n| < 10 ^ 308 :=
  calc |n| ≤ |n| * k := le_mul_of_one_le_right (abs_nonneg n) one
    _ = |n * k| := by rw [abs_mul, abs_of_pos (zero_lt_one.trans_le one)]
    _ ≤ 2 ^ 63 := abs_le.mpr ⟨bounds.1, by linarith [bounds.2]⟩
    _ < 10 ^ 20 := by norm_num
    _ ≤ 10 ^ 308 := pow_le_pow_right₀ (by norm_num) (by norm_num)

/-- A duration of hours or of minutes is read as it is. -/
theorem readsMinutes_of_oneUnit (documented : B.Documented) {s : String} {ns : ℚ}
    (duration : duration? s.toList = some ns) (one : OneUnit s.toList) :
    ∃ minutes, ReadsMinutes B (.string s) minutes ∧ ns = minutes * (60 * 10 ^ 9) := by
  obtain ⟨t, u, text, unit, isNumber⟩ := one
  have notNumber : isNumberChar u = false := by rcases unit with rfl | rfl <;> rfl
  have bounds := duration?_bounds duration
  rw [text] at duration
  rcases duration?_append notNumber duration with ⟨n, k, number, known, rfl⟩ | ⟨c, member, letter⟩
  · have reads (small : |n| < 10 ^ 308) : B.parseNumber t = some n :=
      documented.numeral _ _ (numeral?_of_number? number) small
    rcases unit with rfl | rfl
    · cases known.symm.trans lookup_hour
      have small := abs_lt_of_bounds (by norm_num) bounds
      exact ⟨n * 60, .hours text (reads small), by ring⟩
    · cases known.symm.trans lookup_minute
      have small := abs_lt_of_bounds (by norm_num) bounds
      exact ⟨n, .minutes text (reads small), rfl⟩
  · obtain ⟨n, number⟩ := Option.isSome_iff_exists.mp isNumber
    have inside := isNumeralChar_of_isNumberChar ((number?_isSome number).1 c member)
    rw [isNumeralChar_of_mem_unitLetters letter] at inside
    cases inside

theorem ttlOverlooked_of (documented : B.Documented) {field : Option Term} (long : ¬WithinDay field)
    (undenied : ¬TtlDenied B field) : TtlOverlooked B field := by
  cases field with
  | none => exact .missing
  | some value =>
    have unread : ∀ minutes, ReadsMinutes B value minutes → minutes ≤ ttlCapMinutes :=
      fun minutes reads => le_of_not_gt fun above => undenied ⟨value, minutes, rfl, reads, above⟩
    by_cases isDuration : ∃ s ns, value = .string s ∧ duration? s.toList = some ns
    · obtain ⟨s, ns, rfl, duration⟩ := isDuration
      have above : day < ns := lt_of_not_ge fun within => long ⟨s, ns, rfl, duration, within⟩
      refine .spelling duration above fun one => ?_
      obtain ⟨minutes, reads, rfl⟩ := readsMinutes_of_oneUnit documented duration one
      have few := unread minutes reads
      rw [ttlCapMinutes] at few
      rw [day] at above
      linarith
    · refine .unparsable (fun s same => ?_) unread
      rw [Option.eq_none_iff_forall_ne_some]
      exact fun ns duration => isDuration ⟨s, ns, same, duration⟩

theorem not_withinDay {field : Option Term} (overlooked : TtlOverlooked B field) :
    ¬WithinDay field := by
  rintro ⟨s, ns, here, duration, within⟩
  cases overlooked with
  | missing => cases here
  | spelling duration' long _ =>
    cases here
    cases duration.symm.trans duration'
    exact absurd within (not_le_of_gt long)
  | unparsable no _ =>
    cases here
    rw [no s rfl] at duration
    cases duration

theorem not_ttlDenied (documented : B.Documented) {field : Option Term}
    (overlooked : TtlOverlooked B field) : ¬TtlDenied B field := by
  rintro ⟨value, minutes, here, reads, above⟩
  cases overlooked with
  | missing => cases here
  | spelling duration _ other =>
    cases here
    cases reads with
    | hours text read =>
      exact other ⟨_, _, text, .inl rfl, isSome_of_parseNumber documented duration text (.inl rfl) read⟩
    | minutes text read =>
      exact other ⟨_, _, text, .inr rfl, isSome_of_parseNumber documented duration text (.inr rfl) read⟩
  | unparsable _ unread =>
    cases here
    exact absurd (unread minutes reads) (not_le_of_gt above)

theorem ttlOverlooked_iff (documented : B.Documented) {field : Option Term} :
    TtlOverlooked B field ↔ ¬WithinDay field ∧ ¬TtlDenied B field := by
  constructor
  · intro overlooked
    exact ⟨not_withinDay overlooked, not_ttlDenied documented overlooked⟩
  · rintro ⟨long, undenied⟩
    exact ttlOverlooked_of documented long undenied

theorem denyTtl_eq_nil {container : Term} :
    denyTtl B container = [] ↔ ∀ env ∈ ttlEntries container, ¬TtlDenied B (env.ref ["value"]) := by
  rw [denyTtl, List.filterMap_eq_nil_iff]
  refine forall₂_congr fun env _ => ?_
  rw [body_eq_none_iff]
  constructor
  · rintro silent ⟨value, minutes, here, reads, above⟩
    exact silent value minutes here (durationToMinutes_iff.mpr reads) above
  · intro undenied value minutes here converted above
    exact undenied ⟨value, minutes, here, durationToMinutes_iff.mp converted, above⟩

/-! ### The Deployment -/

/-- The container has its memory, its time to live and its restrictions. -/
structure Hardened (input container : Term) : Prop where
  limit : AtLeast limitFloorBytes (container.ref ["resources", "limits", "memory"])
  request : AtLeast requestFloorBytes (container.ref ["resources", "requests", "memory"])
  ttl : WithinDay (ttlValue container)
  readOnly : container.ref ["securityContext", "readOnlyRootFilesystem"] = some (.bool true)
  nonRoot : (podSecurityContext input).bind (·.ref ["runAsNonRoot"]) = some (.bool true)
  drop : .string "ALL" ∈ each (container.ref ["securityContext", "capabilities", "drop"])
  seccomp : (podSecurityContext input).bind (·.ref ["seccompProfile", "type"]) =
    some (.string "RuntimeDefault")

def memoryCheck (B : Builtins) (floor : ℚ) (field : Option Term) : Check where
  good := AtLeast floor field
  denied := MemoryDenied B floor field
  overlooked := MemoryOverlooked B floor field

/-- The last entry counts, and each may be denied. -/
def ttlCheck (B : Builtins) (container : Term) : Check where
  good := WithinDay (ttlValue container)
  denied := ∃ env ∈ ttlEntries container, TtlDenied B (env.ref ["value"])
  overlooked := TtlOverlooked B (ttlValue container) ∧
    ∀ env ∈ ttlEntries container, ¬TtlDenied B (env.ref ["value"])

/-- A field that must have one value. -/
def fieldCheck (field : Option Term) (required : Term) : Check where
  good := field = some required
  denied := ∃ value, field = some value ∧ value ≠ required
  overlooked := field = none

def capabilityCheck (container : Term) : Check where
  good := .string "ALL" ∈ each (container.ref ["securityContext", "capabilities", "drop"])
  denied := .string "ALL" ∉ each (container.ref ["securityContext", "capabilities", "drop"])
  overlooked := False

def checks (B : Builtins) (input container : Term) : List Check := [
  memoryCheck B limitFloorBytes (container.ref ["resources", "limits", "memory"]),
  memoryCheck B requestFloorBytes (container.ref ["resources", "requests", "memory"]),
  ttlCheck B container,
  fieldCheck (container.ref ["securityContext", "readOnlyRootFilesystem"]) (.bool true),
  fieldCheck ((podSecurityContext input).bind (·.ref ["runAsNonRoot"])) (.bool true),
  capabilityCheck container,
  fieldCheck ((podSecurityContext input).bind (·.ref ["seccompProfile", "type"]))
    (.string "RuntimeDefault")]

theorem ttlCheck_exact (documented : B.Documented) (container : Term) :
    (ttlCheck B container).Exact := by
  constructor
  · rintro ⟨overlooked, undenied⟩
    refine ⟨((ttlOverlooked_iff documented).mp overlooked).1, ?_⟩
    rintro ⟨env, member, denied⟩
    exact undenied env member denied
  · rintro ⟨long, undenied⟩
    have each_undenied : ∀ env ∈ ttlEntries container, ¬TtlDenied B (env.ref ["value"]) :=
      fun env member denied => undenied ⟨env, member, denied⟩
    refine ⟨(ttlOverlooked_iff documented).mpr ⟨long, ?_⟩, each_undenied⟩
    rw [ttlValue]
    cases last : (ttlEntries container).getLast? with
    | none =>
      rintro ⟨_, _, ⟨⟩, -⟩
    | some env => exact each_undenied env (List.mem_of_getLast? last)

theorem fieldCheck_exact (field : Option Term) (required : Term) :
    (fieldCheck field required).Exact := by
  cases field with
  | none => simp [Check.Exact, fieldCheck]
  | some value => simp [Check.Exact, fieldCheck]

theorem checks_exact (documented : B.Documented) (input container : Term) :
    ∀ check ∈ checks B input container, check.Exact := by
  simp only [checks, List.forall_mem_cons, List.not_mem_nil, false_implies, implies_true, and_true]
  refine ⟨memoryOverlooked_iff documented, memoryOverlooked_iff documented,
    ttlCheck_exact documented container, fieldCheck_exact _ _, fieldCheck_exact _ _, ?_,
    fieldCheck_exact _ _⟩
  exact ⟨nofun, fun ⟨missing, undenied⟩ => undenied missing⟩

theorem hardened_iff {input container : Term} :
    Hardened input container ↔ ∀ check ∈ checks B input container, check.good := by
  simp only [checks, List.forall_mem_cons, List.not_mem_nil, false_implies, implies_true, and_true]
  constructor
  · rintro ⟨limit, request, ttl, readOnly, nonRoot, drop, seccomp⟩
    exact ⟨limit, request, ttl, readOnly, nonRoot, drop, seccomp⟩
  · rintro ⟨limit, request, ttl, readOnly, nonRoot, drop, seccomp⟩
    exact ⟨limit, request, ttl, readOnly, nonRoot, drop, seccomp⟩

theorem denyOther_eq_nil {field : Option Term} {required : Term} {msg : String} :
    denyOther field required msg = [] ↔ ¬(fieldCheck field required).denied := by
  cases field with
  | none => simp [denyOther, fieldCheck]
  | some value => simp [denyOther, fieldCheck]

theorem denyCapabilities_eq_nil {container : Term} :
    denyCapabilities container = [] ↔ ¬(capabilityCheck container).denied := by
  simp [denyCapabilities, dropsAllCapabilities, capabilityCheck]

/-- The rules about a container deny it just where a check does. -/
theorem silent_iff (documented : B.Documented) {input container : Term} :
    messages B (podSecurityContext input) container = [] ↔
      ∀ check ∈ checks B input container, ¬check.denied := by
  simp only [messages, checks, List.forall_mem_cons, List.not_mem_nil, false_implies, implies_true,
    and_true, List.append_eq_nil_iff, and_assoc]
  rw [denyLimit, belowFloor_eq_nil documented, denyRequest, belowFloor_eq_nil documented,
    denyTtl_eq_nil, denyWritable, denyOther_eq_nil, denyRoot, denyOther_eq_nil,
    denyCapabilities_eq_nil, denySeccomp, denyOther_eq_nil]
  simp only [memoryCheck, ttlCheck, not_exists, not_and]

/-! ### The policy -/

/-- The containers of the name. -/
def jaegers (input : Term) : List Term :=
  (each (input.ref ["spec", "template", "spec", "containers"])).filter fun container =>
    container.ref ["name"] = some (.string "jaeger")

/-- Each container of the name has something the policy overlooks, or there is none. -/
def Overlooked (B : Builtins) (input : Term) : Prop :=
  ∀ container ∈ jaegers input, ∃ check ∈ checks B input container, check.overlooked

/-- There is something to deny, or no telling which container is meant. -/
def Denied (B : Builtins) (input : Term) : Prop :=
  (∃ container ∈ jaegers input, ∃ other ∈ jaegers input, container ≠ other) ∨
    ∃ container ∈ jaegers input, ∃ check ∈ checks B input container, check.denied

/-- The policy is sound for a Deployment of Jaeger just where it denies something whenever it overlooks
something. -/
theorem sizing_sound_iff (documented : B.Documented) (input : Term)
    (kind : input.ref ["kind"] = some (.string "Deployment"))
    (name : input.ref ["metadata", "name"] = some (.string "jaeger")) :
    (deny B input = .ok [] → ∃ container ∈ jaegers input, Hardened input container) ↔
      (Overlooked B input → Denied B input) := by
  have found : jaegerContainers input = jaegers input := if_pos ⟨kind, name⟩
  rw [deny, jaegerContainer, found, Overlooked, Denied]
  cases jaegers input with
  | nil =>
    constructor
    · intro sound
      obtain ⟨_, member, -⟩ := sound rfl
      cases member
    · intro covered
      rcases covered nofun with ⟨_, member, -⟩ | ⟨_, member, -⟩
      · cases member
      · cases member
  | cons container rest =>
    by_cases one : ∀ other ∈ rest, other = container
    · have here : container ∈ container :: rest := List.mem_cons_self
      have onlyOne : ∀ other ∈ container :: rest, other = container :=
        List.forall_mem_cons.mpr ⟨rfl, one⟩
      have exists_iff := exists_mem_iff_of_forall_eq here onlyOne
      have noOther : ¬∃ other ∈ container :: rest, container ≠ other := by
        rintro ⟨other, member, ne⟩
        exact ne (onlyOne other member).symm
      rw [complete_cons one, exists_iff, forall_mem_iff_of_forall_eq here onlyOne, exists_iff,
        or_iff_right noOther, exists_iff, hardened_iff (B := B),
        ← sound_iff (checks_exact documented input container), ← silent_iff documented]
      exact imp_congr_left (Except.ok.injEq _ _).to_iff
    · simp only [not_forall] at one
      obtain ⟨other, member, ne⟩ := one
      have here : container ∈ container :: rest := List.mem_cons_self
      have there : other ∈ container :: rest := List.mem_cons_of_mem _ member
      rw [complete_of_ne here there (Ne.symm ne)]
      constructor
      · intro _ _
        exact .inl ⟨container, here, other, there, Ne.symm ne⟩
      · intro _ silent
        cases silent

/-! ### Two Deployments -/

/-- A Deployment whose container has these fields. -/
def deployment (resources env securityContext podSecurityContext : List (String × Term)) : Term :=
  .object [("kind", .string "Deployment"), ("metadata", .object [("name", .string "jaeger")]),
    ("spec", .object [("template", .object [("spec", .object [
      ("containers", .array [.object [
        ("env", .array [.object env]), ("name", .string "jaeger"),
        ("resources", .object resources), ("securityContext", .object securityContext)]]),
      ("securityContext", .object podSecurityContext)])])])]

/-- The sized and hardened one of the policy's tests. -/
def hardenedInput : Term :=
  deployment
    [("limits", .object [("memory", .string "1Gi")]), ("requests", .object [("memory", .string "256Mi")])]
    [("name", .string ttlEnvName), ("value", .string "24h")]
    [("capabilities", .object [("drop", .array [.string "ALL"])]),
      ("readOnlyRootFilesystem", .bool true)]
    [("runAsNonRoot", .bool true),
      ("seccompProfile", .object [("type", .string "RuntimeDefault")])]

/-- Without a memory limit, with a request of 128 megabytes, for a hundred hours and a half, and without
the restrictions of the pod. -/
def laxInput : Term :=
  deployment
    [("requests", .object [("memory", .string "128M")])]
    [("name", .string ttlEnvName), ("value", .string "100h30m")]
    [("capabilities", .object [("drop", .array [.string "ALL"])])]
    []

def hardenedContainer : Term := (jaegers hardenedInput).headD .null

/-- Each field of the first is there, and of a spelling that the policy reads. -/
theorem not_overlooked_hardened : ¬Overlooked .numerals hardenedInput := by
  intro overlooked
  obtain ⟨check, member, missed⟩ := overlooked hardenedContainer (by decide +kernel)
  simp only [checks, List.mem_cons, List.not_mem_nil, or_false] at member
  rcases member with rfl | rfl | rfl | rfl | rfl | rfl | rfl
  · exact not_atLeast missed
      ⟨.string "1Gi", 1073741824, by decide +kernel, by decide +kernel, by decide +kernel⟩
  · exact not_atLeast missed
      ⟨.string "256Mi", 268435456, by decide +kernel, by decide +kernel, by decide +kernel⟩
  · exact not_withinDay missed.1
      ⟨"24h", 24 * 3600 * 10 ^ 9, by decide +kernel, by decide +kernel, by decide +kernel⟩
  · have missing : hardenedContainer.ref ["securityContext", "readOnlyRootFilesystem"] = none := missed
    exact absurd missing (by decide +kernel)
  · have missing : (podSecurityContext hardenedInput).bind (·.ref ["runAsNonRoot"]) = none := missed
    exact absurd missing (by decide +kernel)
  · exact missed
  · have missing : (podSecurityContext hardenedInput).bind (·.ref ["seccompProfile", "type"]) = none :=
      missed
    exact absurd missing (by decide +kernel)

/-- The rules pass the first, which is hardened. -/
theorem sizing_sound_hardened : deny .numerals hardenedInput = .ok [] ∧
    ∃ container ∈ jaegers hardenedInput, Hardened hardenedInput container := by
  have silent : deny .numerals hardenedInput = .ok [] := by decide +kernel
  refine ⟨silent, (sizing_sound_iff Builtins.numerals_documented hardenedInput (by decide +kernel)
    (by decide +kernel)).mpr (fun overlooked => ?_) silent⟩
  exact absurd overlooked not_overlooked_hardened

/-- The rules pass the second, of which nothing is as it must be but the capabilities. -/
theorem lax_passes : ¬∀ (B : Builtins) (input : Term), B.Documented →
    input.ref ["kind"] = some (.string "Deployment") →
    input.ref ["metadata", "name"] = some (.string "jaeger") →
    deny B input = .ok [] → ∃ container ∈ jaegers input, Hardened input container := by
  intro law
  obtain ⟨container, member, hardened⟩ := law .numerals laxInput Builtins.numerals_documented
    (by decide +kernel) (by decide +kernel) (by decide +kernel)
  obtain ⟨memory, _, limit, -⟩ := hardened.limit
  have missing : ∀ c ∈ jaegers laxInput, c.ref ["resources", "limits", "memory"] = none := by
    decide +kernel
  rw [missing container member] at limit
  cases limit

end Mikrouli.JaegerPolicy
