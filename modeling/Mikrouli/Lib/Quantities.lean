import Mathlib.Data.List.SplitBy
import Mathlib.Data.List.TakeWhile
import Mathlib.Tactic.FinCases
import Mathlib.Tactic.Linarith

/-! Decimal numerals, and the quantities of Kubernetes and the durations of Go that are written with
them. -/

namespace Quantities

/-! ### Numerals -/

def digits? (s : List Char) : Option ℕ :=
  if s ≠ [] ∧ s.all Char.isDigit then
    some (s.foldl (fun n c => 10 * n + (c.toNat - '0'.toNat)) 0)
  else none

/-- Digits with a point among them, before them or behind them. -/
def decimal? (s : List Char) : Option ℚ :=
  let whole := s.takeWhile (· ≠ '.')
  let fraction := (s.dropWhile (· ≠ '.')).tail
  (digits? (whole ++ fraction)).map fun n : ℕ => (n : ℚ) / 10 ^ fraction.length

def signed? {α : Type} [Neg α] (read : List Char → Option α) : List Char → Option α
  | '+' :: s => read s
  | '-' :: s => (read s).map Neg.neg
  | s => read s

def integer? : List Char → Option ℤ := signed? fun s => (digits? s).map Int.ofNat

def number? : List Char → Option ℚ := signed? decimal?

def isNumberChar (c : Char) : Bool := c.isDigit || ['.', '+', '-'].contains c

/-- The power of ten behind a number, one without it. -/
def exponent? : List Char → Option ℚ
  | [] => some 1
  | c :: s => if c = 'e' ∨ c = 'E' then (integer? s).map ((10 : ℚ) ^ ·) else none

/-- What is before the unit of a quantity. -/
def numberOf (s : List Char) : List Char := s.takeWhile isNumberChar

def unitOf (s : List Char) : List Char := s.dropWhile isNumberChar

def numeral? (s : List Char) : Option ℚ := do
  let n ← number? (numberOf s)
  let e ← exponent? (unitOf s)
  pure (n * e)

theorem digits?_isSome {s : List Char} {n : ℕ} (read : digits? s = some n) :
    s ≠ [] ∧ ∀ c ∈ s, c.isDigit = true := by
  obtain ⟨valid, -⟩ := Option.ite_none_right_eq_some.mp read
  exact ⟨valid.1, List.all_eq_true.mp valid.2⟩

def isDecimalChar (c : Char) : Bool := c.isDigit || c == '.'

theorem eq_false_of_dropWhile {p : Char → Bool} {s rest : List Char} {c : Char}
    (behind : s.dropWhile p = c :: rest) : p c = false := by
  have stopped := List.head?_dropWhile_not p s
  rwa [behind] at stopped

theorem decimal?_isSome {s : List Char} {v : ℚ} (read : decimal? s = some v) :
    s ≠ [] ∧ ∀ c ∈ s, isDecimalChar c = true := by
  obtain ⟨n, digits, -⟩ := Option.map_eq_some_iff.mp read
  obtain ⟨nonempty, all⟩ := digits?_isSome digits
  constructor
  · rintro rfl
    exact nonempty rfl
  · intro c member
    rw [isDecimalChar, Bool.or_eq_true, beq_iff_eq]
    rw [← List.takeWhile_append_dropWhile (p := (· ≠ '.')) (l := s)] at member
    rcases List.mem_append.mp member with whole | rest
    · exact .inl (all c (List.mem_append_left _ whole))
    · cases behind : s.dropWhile (· ≠ '.') with
      | nil =>
        rw [behind] at rest
        cases rest
      | cons point fraction =>
        rw [behind] at rest all
        rcases List.mem_cons.mp rest with rfl | later
        · exact .inr (by simpa using eq_false_of_dropWhile behind)
        · exact .inl (all c (List.mem_append_right _ later))

/-- With a sign or without. -/
theorem signed?_cases {α : Type} [Neg α] (read : List Char → Option α) (s : List Char) :
    (∃ t, s = '+' :: t ∧ signed? read s = read t) ∨
      (∃ t, s = '-' :: t ∧ signed? read s = (read t).map Neg.neg) ∨
      signed? read s = read s := by
  unfold signed?
  split
  · exact .inl ⟨_, rfl, rfl⟩
  · exact .inr (.inl ⟨_, rfl, rfl⟩)
  · exact .inr (.inr rfl)

theorem isNumberChar_of_isDecimalChar {c : Char} (decimal : isDecimalChar c = true) :
    isNumberChar c = true := by
  rw [isDecimalChar, Bool.or_eq_true, beq_iff_eq] at decimal
  rcases decimal with digit | rfl
  · rw [isNumberChar, digit, Bool.true_or]
  · rfl

/-- What holds of what is read without its sign, and stays true behind a sign. -/
theorem of_signed? {α : Type} [Neg α] {read : List Char → Option α} {Q : List Char → Prop}
    (unsigned : ∀ t w, read t = some w → Q t) (sign : ∀ c ∈ ['+', '-'], ∀ t, Q t → Q (c :: t))
    {s : List Char} {v : α} (signed : signed? read s = some v) : Q s := by
  rcases signed?_cases read s with ⟨t, rfl, same⟩ | ⟨t, rfl, same⟩ | same
  · exact sign '+' (by decide) t (unsigned t v (same.symm.trans signed))
  · obtain ⟨w, inside, -⟩ := Option.map_eq_some_iff.mp (same.symm.trans signed)
    exact sign '-' (by decide) t (unsigned t w inside)
  · exact unsigned s v (same.symm.trans signed)

/-- The last character, if the list has one, is among these. -/
def EndsIn (p : Char → Bool) (s : List Char) : Prop := ∃ c ∈ s.getLast?, p c = true

theorem EndsIn.cons {p : Char → Bool} {s : List Char} (ends : EndsIn p s) (c : Char) :
    EndsIn p (c :: s) := by
  obtain ⟨d, last, here⟩ := ends
  refine ⟨d, ?_, here⟩
  rw [List.getLast?_cons, Option.mem_def.mp last]
  rfl

theorem endsIn_of_all {p : Char → Bool} {s : List Char} (nonempty : s ≠ [])
    (all : ∀ c ∈ s, p c = true) : EndsIn p s :=
  ⟨s.getLast nonempty, List.getLast_mem_getLast? nonempty, all _ (List.getLast_mem nonempty)⟩

theorem not_endsIn_append {p : Char → Bool} {t u : List Char} {c : Char}
    (last : u.getLast? = some c) (other : p c = false) : ¬EndsIn p (t ++ u) := by
  rintro ⟨d, ending, here⟩
  rw [List.getLast?_append, last] at ending
  cases ending
  rw [other] at here
  cases here

/-- The characters of a number, and its last one. -/
theorem number?_isSome {s : List Char} {v : ℚ} (read : number? s = some v) :
    (∀ c ∈ s, isNumberChar c = true) ∧ EndsIn isDecimalChar s := by
  refine of_signed? (Q := fun s => (∀ c ∈ s, isNumberChar c = true) ∧ EndsIn isDecimalChar s)
    (fun t w decimal => ?_) (fun sign isSign t all => ?_) read
  · obtain ⟨nonempty, all⟩ := decimal?_isSome decimal
    exact ⟨fun c member => isNumberChar_of_isDecimalChar (all c member), endsIn_of_all nonempty all⟩
  · refine ⟨List.forall_mem_cons.mpr ⟨?_, all.1⟩, all.2.cons sign⟩
    fin_cases isSign <;> rfl

/-- The characters of numerals, of hexadecimal ones too. -/
def isNumeralChar (c : Char) : Bool := c.isDigit || "+-._eExXpPaAbBcCdDfF".toList.contains c

theorem exponent?_isSome {s : List Char} {v : ℚ} (read : exponent? s = some v) :
    (∀ c ∈ s, isNumeralChar c = true) ∧ (s = [] ∨ EndsIn Char.isDigit s) := by
  cases s with
  | nil => exact ⟨nofun, .inl rfl⟩
  | cons letter s =>
    obtain ⟨isLetter, power⟩ := Option.ite_none_right_eq_some.mp read
    obtain ⟨n, integer, -⟩ := Option.map_eq_some_iff.mp power
    have ⟨all, ends⟩ : (∀ c ∈ s, isNumeralChar c = true) ∧ EndsIn Char.isDigit s := by
      refine of_signed? (Q := fun s => (∀ c ∈ s, isNumeralChar c = true) ∧ EndsIn Char.isDigit s)
        (fun t w read => ?_) (fun sign isSign t all => ?_) integer
      · obtain ⟨_, digits, -⟩ := Option.map_eq_some_iff.mp read
        obtain ⟨nonempty, all⟩ := digits?_isSome digits
        refine ⟨fun c member => ?_, endsIn_of_all nonempty all⟩
        rw [isNumeralChar, all c member, Bool.true_or]
      · refine ⟨List.forall_mem_cons.mpr ⟨?_, all.1⟩, all.2.cons sign⟩
        fin_cases isSign <;> rfl
    refine ⟨List.forall_mem_cons.mpr ⟨?_, all⟩, .inr (ends.cons letter)⟩
    rcases isLetter with rfl | rfl <;> rfl

theorem numberOf_append_unitOf (s : List Char) : numberOf s ++ unitOf s = s :=
  List.takeWhile_append_dropWhile

theorem isNumberChar_of_mem_numberOf {s : List Char} {c : Char} (member : c ∈ numberOf s) :
    isNumberChar c = true :=
  List.mem_takeWhile_imp member

/-- What a text ends in, without a character of numbers, is in its unit. -/
theorem suffix_unitOf {s w : List Char} (ends : w <:+ s) (letters : ∀ c ∈ w, isNumberChar c = false) :
    w <:+ unitOf s := by
  induction s with
  | nil => exact ends
  | cons c s ih =>
    rw [unitOf, List.dropWhile_cons]
    split
    next number =>
      refine ih ?_
      rcases List.suffix_cons_iff.mp ends with rfl | later
      · rw [letters c List.mem_cons_self] at number
        cases number
      · exact later
    · exact ends

theorem isDecimalChar_of_isDigit {c : Char} (digit : c.isDigit = true) : isDecimalChar c = true := by
  rw [isDecimalChar, digit, Bool.true_or]

theorem isNumeralChar_of_isNumberChar {c : Char} (number : isNumberChar c = true) :
    isNumeralChar c = true := by
  rw [isNumberChar, Bool.or_eq_true] at number
  rcases number with digit | other
  · rw [isNumeralChar, digit, Bool.true_or]
  · have included : ['.', '+', '-'].all isNumeralChar = true := by decide +kernel
    exact List.all_eq_true.mp included c (List.contains_iff_mem.mp other)

/-- The characters of a numeral, and its last one. -/
theorem numeral?_isSome {s : List Char} {v : ℚ} (read : numeral? s = some v) :
    (∀ c ∈ s, isNumeralChar c = true) ∧ EndsIn isDecimalChar s := by
  obtain ⟨n, number, read⟩ := Option.bind_eq_some_iff.mp read
  obtain ⟨e, power, -⟩ := Option.bind_eq_some_iff.mp read
  obtain ⟨-, numberEnds⟩ := number?_isSome number
  obtain ⟨all, powerEnds⟩ := exponent?_isSome power
  rw [← numberOf_append_unitOf s]
  constructor
  · intro c member
    rcases List.mem_append.mp member with inside | behind
    · exact isNumeralChar_of_isNumberChar (isNumberChar_of_mem_numberOf inside)
    · exact all c behind
  · rcases powerEnds with bare | ⟨c, last, digit⟩
    · rwa [bare, List.append_nil]
    · refine ⟨c, ?_, isDecimalChar_of_isDigit digit⟩
      rw [List.getLast?_append, Option.mem_def.mp last]
      rfl

/-- A number alone is a numeral. -/
theorem numeral?_of_number? {s : List Char} {v : ℚ} (read : number? s = some v) :
    numeral? s = some v := by
  have all := (number?_isSome read).1
  have number : numberOf s = s := List.takeWhile_eq_self_iff.mpr all
  have unit : unitOf s = [] := List.dropWhile_eq_nil_iff.mpr all
  rw [numeral?, number, unit, read]
  simp [exponent?]

/-! ### Quantities -/

def units : List (List Char × ℚ) := [
  ("n".toList, 1 / 10 ^ 9), ("u".toList, 1 / 10 ^ 6), ("m".toList, 1 / 10 ^ 3),
  ("k".toList, 10 ^ 3), ("M".toList, 10 ^ 6), ("G".toList, 10 ^ 9), ("T".toList, 10 ^ 12),
  ("P".toList, 10 ^ 15), ("E".toList, 10 ^ 18),
  ("Ki".toList, 2 ^ 10), ("Mi".toList, 2 ^ 20), ("Gi".toList, 2 ^ 30), ("Ti".toList, 2 ^ 40),
  ("Pi".toList, 2 ^ 50), ("Ei".toList, 2 ^ 60)]

/-- A quantity of Kubernetes. -/
def quantity? (s : List Char) : Option ℚ := do
  let n ← number? (numberOf s)
  let k ← (exponent? (unitOf s)).or (units.lookup (unitOf s))
  pure (n * k)

example : quantity? "1Gi".toList = quantity? "1024Mi".toList := by decide +kernel

example : quantity? "1.5E3".toList = some 1500 := by decide +kernel

/-! ### Durations -/

/-- The units of a duration, in nanoseconds. -/
def durationUnits : List (List Char × ℚ) := [
  ("ns".toList, 1), ("us".toList, 10 ^ 3), ("µs".toList, 10 ^ 3), ("μs".toList, 10 ^ 3),
  ("ms".toList, 10 ^ 6), ("s".toList, 10 ^ 9), ("m".toList, 60 * 10 ^ 9), ("h".toList, 3600 * 10 ^ 9)]

/-- Decimals and units in turn. -/
def components? : List (List Char) → Option ℚ
  | [] => some 0
  | [_] => none
  | n :: u :: rest => do
    let n ← decimal? n
    let k ← durationUnits.lookup u
    let r ← components? rest
    pure (n * k + r)

def runs (s : List Char) : List (List Char) := s.splitBy fun a b => isDecimalChar a == isDecimalChar b

def unsignedDuration? (s : List Char) : Option ℚ :=
  if s = ['0'] then some 0
  else if s = [] then none
  else components? (runs s)

/-- A duration of Go, in nanoseconds, which are counted in 64 bits. It is exact where Go drops the
fraction of a nanosecond of a component. -/
def duration? (s : List Char) : Option ℚ :=
  (signed? unsignedDuration? s).filter fun v => decide (-2 ^ 63 ≤ v ∧ v ≤ 2 ^ 63 - 1)

example : duration? "-1.5h".toList = some (-5400 * 10 ^ 9) := by decide +kernel

example : duration? "24h0m0s".toList = duration? "1440m".toList := by decide +kernel

def unitLetters : List Char := "nuµμmsh".toList

theorem mem_of_lookup {table : List (List Char × ℚ)} {u : List Char} {k : ℚ}
    (known : table.lookup u = some k) : (u, k) ∈ table := by
  obtain ⟨before, after, rfl, -⟩ := List.lookup_eq_some_iff.mp known
  exact List.mem_append_right _ List.mem_cons_self

theorem mem_unitLetters {u : List Char} {k : ℚ} (unit : durationUnits.lookup u = some k) :
    ∀ c ∈ u, c ∈ unitLetters := by
  have letters : ∀ entry ∈ durationUnits, entry.1.all unitLetters.contains = true := by decide +kernel
  intro c member
  exact List.contains_iff_mem.mp (List.all_eq_true.mp (letters (u, k) (mem_of_lookup unit)) c member)

/-- No letter of a unit is in a numeral. -/
theorem isNumeralChar_of_mem_unitLetters {c : Char} (letter : c ∈ unitLetters) :
    isNumeralChar c = false := by
  have foreign : unitLetters.all (fun c => !isNumeralChar c) = true := by decide +kernel
  exact Bool.eq_false_of_not_eq_true' (List.all_eq_true.mp foreign c letter)

theorem mem_of_components? {parts : List (List Char)} {v : ℚ} (read : components? parts = some v) :
    ∀ c ∈ parts.flatten, isDecimalChar c = true ∨ c ∈ unitLetters := by
  induction parts using components?.induct generalizing v with
  | case1 => nofun
  | case2 => cases read
  | case3 n u rest ih =>
    obtain ⟨_, decimal, read⟩ := Option.bind_eq_some_iff.mp read
    obtain ⟨_, unit, read⟩ := Option.bind_eq_some_iff.mp read
    obtain ⟨_, later, -⟩ := Option.bind_eq_some_iff.mp read
    intro c member
    rcases List.mem_append.mp member with inside | member
    · exact .inl ((decimal?_isSome decimal).2 c inside)
    · rcases List.mem_append.mp member with inside | behind
      · exact .inr (mem_unitLetters unit c inside)
      · exact ih later c behind

theorem runs_append {t : List Char} {u : Char} (nonempty : t ≠ [])
    (all : ∀ c ∈ t, isDecimalChar c = true) (unit : isDecimalChar u = false) :
    runs (t ++ [u]) = [t, [u]] := by
  have boundary : ∀ c ∈ t.getLast?, (isDecimalChar c == isDecimalChar u) = false := by
    intro c last
    rw [all c (List.mem_of_mem_getLast? last), unit]
    rfl
  have chain : t.IsChain fun a b => (isDecimalChar a == isDecimalChar b) = true := by
    refine List.Pairwise.isChain (List.pairwise_of_forall_mem_list fun a inA b inB => ?_)
    rw [all a inA, all b inB]
    rfl
  rw [runs, List.splitBy_append_cons _ boundary, List.splitBy_of_isChain nonempty chain]
  rfl

/-- A duration that ends in a unit is one number in that unit, or has another unit before it. -/
theorem unsignedDuration?_append {t : List Char} {u : Char} {v : ℚ}
    (unit : isDecimalChar u = false) (read : unsignedDuration? (t ++ [u]) = some v) :
    (∃ n k, decimal? t = some n ∧ durationUnits.lookup [u] = some k ∧ v = n * k) ∨
      ∃ c ∈ t, c ∈ unitLetters := by
  have notZero : t ++ [u] ≠ ['0'] := by
    intro zero
    have last := congrArg List.getLast? zero
    rw [List.getLast?_concat] at last
    cases last
    cases unit
  rw [unsignedDuration?, if_neg notZero, if_neg (by simp)] at read
  by_cases all : ∀ c ∈ t, isDecimalChar c = true
  · rcases eq_or_ne t [] with rfl | nonempty
    · cases read
    · rw [runs_append nonempty all unit] at read
      obtain ⟨n, decimal, read⟩ := Option.bind_eq_some_iff.mp read
      obtain ⟨k, known, read⟩ := Option.bind_eq_some_iff.mp read
      obtain ⟨_, ⟨⟩, ⟨⟩⟩ := Option.bind_eq_some_iff.mp read
      exact .inl ⟨n, k, decimal, known, add_zero _⟩
  · simp only [not_forall] at all
    obtain ⟨c, member, other⟩ := all
    have inside : c ∈ (runs (t ++ [u])).flatten := by
      rw [runs, List.flatten_splitBy]
      exact List.mem_append_left _ member
    exact .inr ⟨c, member, (mem_of_components? read c inside).resolve_left other⟩

theorem number?_of_decimal? {s : List Char} {v : ℚ} (read : decimal? s = some v) :
    number? s = some v := by
  have all := (decimal?_isSome read).2
  rcases signed?_cases decimal? s with ⟨t, rfl, -⟩ | ⟨t, rfl, -⟩ | unsigned
  · cases all '+' List.mem_cons_self
  · cases all '-' List.mem_cons_self
  · exact unsigned.trans read

theorem duration?_append {t : List Char} {u : Char} {v : ℚ} (unit : isNumberChar u = false)
    (read : duration? (t ++ [u]) = some v) :
    (∃ n k, number? t = some n ∧ durationUnits.lookup [u] = some k ∧ v = n * k) ∨
      ∃ c ∈ t, c ∈ unitLetters := by
  have notDecimal : isDecimalChar u = false := by
    by_contra decimal
    rw [Bool.not_eq_false] at decimal
    rw [isNumberChar_of_isDecimalChar decimal] at unit
    cases unit
  have read := (Option.filter_eq_some_iff.mp read).1
  have behind {sign : Char} {w : List Char} (isSign : isNumberChar sign = true)
      (same : t ++ [u] = sign :: w) : ∃ t', t = sign :: t' ∧ w = t' ++ [u] := by
    cases t with
    | nil =>
      cases same
      rw [unit] at isSign
      cases isSign
    | cons c t' =>
      cases same
      exact ⟨t', rfl, rfl⟩
  rcases signed?_cases unsignedDuration? (t ++ [u]) with ⟨w, same, signed⟩ | ⟨w, same, signed⟩ | unsigned
  · obtain ⟨t', rfl, rfl⟩ := behind rfl same
    rcases unsignedDuration?_append notDecimal (signed.symm.trans read) with
      ⟨n, k, decimal, known, value⟩ | ⟨c, member, letter⟩
    · exact .inl ⟨n, k, decimal, known, value⟩
    · exact .inr ⟨c, List.mem_cons_of_mem _ member, letter⟩
  · obtain ⟨t', rfl, rfl⟩ := behind rfl same
    obtain ⟨v', unsigned, rfl⟩ := Option.map_eq_some_iff.mp (signed.symm.trans read)
    rcases unsignedDuration?_append notDecimal unsigned with
      ⟨n, k, decimal, known, rfl⟩ | ⟨c, member, letter⟩
    · exact .inl ⟨-n, k, Option.map_eq_some_iff.mpr ⟨n, decimal, rfl⟩, known, (neg_mul n k).symm⟩
    · exact .inr ⟨c, List.mem_cons_of_mem _ member, letter⟩
  · rcases unsignedDuration?_append notDecimal (unsigned.symm.trans read) with
      ⟨n, k, decimal, known, value⟩ | letters
    · exact .inl ⟨n, k, number?_of_decimal? decimal, known, value⟩
    · exact .inr letters

theorem duration?_bounds {s : List Char} {v : ℚ} (read : duration? s = some v) :
    -2 ^ 63 ≤ v ∧ v ≤ 2 ^ 63 - 1 :=
  of_decide_eq_true (Option.filter_eq_some_iff.mp read).2

end Quantities
