import Mikrouli.Lib.Quantities

/-! The documents and the rules of Rego, as far as policies over manifests use them. An expression over
what a document does not have is undefined. -/

namespace Rego

/-- A document. The fields of an object stand in the order of their keys, each key once. -/
inductive Term where
  | null
  | bool (b : Bool)
  | number (n : ℚ)
  | string (s : String)
  | array (items : List Term)
  | object (fields : List (String × Term))

namespace Term

mutual

/-- `a == b` -/
def same : Term → Term → Bool
  | .null, .null => true
  | .bool a, .bool b => a == b
  | .number a, .number b => decide (a = b)
  | .string a, .string b => decide (a = b)
  | .array as, .array bs => sameItems as bs
  | .object as, .object bs => sameFields as bs
  | _, _ => false

def sameItems : List Term → List Term → Bool
  | [], [] => true
  | a :: as, b :: bs => same a b && sameItems as bs
  | _, _ => false

def sameFields : List (String × Term) → List (String × Term) → Bool
  | [], [] => true
  | (k, a) :: as, (l, b) :: bs => decide (k = l) && same a b && sameFields as bs
  | _, _ => false

end

mutual

theorem same_iff : ∀ a b : Term, same a b = true ↔ a = b
  | .null, b => by cases b <;> simp [same]
  | .bool a, b => by cases b <;> simp [same]
  | .number a, b => by cases b <;> simp [same]
  | .string a, b => by cases b <;> simp [same]
  | .array as, b => by
    cases b with
    | array bs => simp [same, sameItems_iff as bs]
    | _ => simp [same]
  | .object as, b => by
    cases b with
    | object bs => simp [same, sameFields_iff as bs]
    | _ => simp [same]

theorem sameItems_iff : ∀ as bs : List Term, sameItems as bs = true ↔ as = bs
  | [], bs => by cases bs <;> simp [sameItems]
  | a :: as, bs => by
    cases bs with
    | nil => simp [sameItems]
    | cons b bs => simp [sameItems, same_iff a b, sameItems_iff as bs]

theorem sameFields_iff : ∀ as bs : List (String × Term), sameFields as bs = true ↔ as = bs
  | [], bs => by cases bs <;> simp [sameFields]
  | (k, a) :: as, bs => by
    cases bs with
    | nil => simp [sameFields]
    | cons b bs => simp [sameFields, same_iff a b.2, sameFields_iff as bs, Prod.ext_iff]

end

instance : DecidableEq Term := fun a b => decidable_of_iff (same a b = true) (same_iff a b)

/-- `v[key]` -/
def get (v : Term) (key : String) : Option Term :=
  match v with
  | .object fields => fields.lookup key
  | _ => none

/-- `v.a.b.c` -/
def ref (v : Term) (path : List String) : Option Term := path.foldlM get v

@[simp] theorem ref_nil (v : Term) : v.ref [] = some v := rfl

@[simp] theorem ref_cons (v : Term) (key : String) (path : List String) :
    v.ref (key :: path) = (v.get key).bind (·.ref path) :=
  List.foldlM_cons

@[simp] theorem get_object (fields : List (String × Term)) (key : String) :
    (object fields).get key = fields.lookup key := rfl

/-- What `some x in v` ranges over. -/
def elements : Term → List Term
  | .array items => items
  | .object fields => fields.map Prod.snd
  | _ => []

end Term

/-- `some x in v`, of what may be undefined. -/
def each (v : Option Term) : List Term := (v.map Term.elements).getD []

/-! ### Rules -/

/-- Two bodies of a complete rule give different values. -/
inductive Conflict where
  | mk
  deriving DecidableEq, Repr

/-- A rule with one value, undefined where no body gives one. -/
def complete (values : List Term) : Except Conflict (Option Term) :=
  match values with
  | [] => .ok none
  | v :: rest => if ∀ w ∈ rest, w = v then .ok (some v) else .error .mk

theorem complete_cons {v : Term} {rest : List Term} (one : ∀ w ∈ rest, w = v) :
    complete (v :: rest) = .ok (some v) :=
  if_pos one

theorem complete_of_ne {values : List Term} {v w : Term} (left : v ∈ values) (right : w ∈ values)
    (other : v ≠ w) : complete values = .error .mk := by
  cases values with
  | nil => nomatch left
  | cons head rest =>
    refine if_neg fun one => other ?_
    have toHead : ∀ u ∈ head :: rest, u = head := by
      intro u member
      rcases List.mem_cons.mp member with rfl | later
      · rfl
      · exact one u later
    exact (toHead v left).trans (toHead w right).symm

/-- A body of two steps and a comparison says nothing. -/
theorem body_eq_none_iff {α β γ : Type} {x : Option α} {f : α → Option β} {p : β → Prop}
    [DecidablePred p] {msg : α → γ} :
    (x.bind fun a => (f a).bind fun b => if p b then some (msg a) else none) = none ↔
      ∀ a b, x = some a → f a = some b → ¬p b := by
  constructor
  · intro silent a b here found holds
    rw [here, Option.bind_some, found, Option.bind_some, if_pos holds] at silent
    cases silent
  · intro fails
    rw [Option.eq_none_iff_forall_ne_some]
    intro said denied
    obtain ⟨a, here, denied⟩ := Option.bind_eq_some_iff.mp denied
    obtain ⟨b, found, denied⟩ := Option.bind_eq_some_iff.mp denied
    obtain ⟨holds, -⟩ := Option.ite_none_right_eq_some.mp denied
    exact fails a b here found holds

/-- Of a list of copies. -/
theorem exists_mem_iff_of_forall_eq {values : List Term} {v : Term} (here : v ∈ values)
    (one : ∀ w ∈ values, w = v) (P : Term → Prop) : (∃ w ∈ values, P w) ↔ P v := by
  constructor
  · rintro ⟨w, member, holds⟩
    exact one w member ▸ holds
  · intro holds
    exact ⟨v, here, holds⟩

theorem forall_mem_iff_of_forall_eq {values : List Term} {v : Term} (here : v ∈ values)
    (one : ∀ w ∈ values, w = v) (P : Term → Prop) : (∀ w ∈ values, P w) ↔ P v := by
  constructor
  · intro all
    exact all v here
  · intro holds w member
    exact one w member ▸ holds

/-! ### Built-in functions -/

/-- The functions of the language that take a text apart or write one. -/
structure Builtins where
  /-- the number a string stands for, in `to_number` -/
  parseNumber : List Char → Option ℚ
  sprintf : String → List Term → String

/-- Undefined for all but strings, as is every function applied to a value of another type. -/
def endsWith (v : Term) (suffix : String) : Bool :=
  match v with
  | .string s => suffix.toList.isSuffixOf s.toList
  | _ => false

def trimSuffix (v : Term) (suffix : String) : Option Term :=
  match v with
  | .string s =>
    if suffix.toList.isSuffixOf s.toList then
      some (.string (.ofList (s.toList.take (s.toList.length - suffix.toList.length))))
    else some v
  | _ => none

def toNumber (B : Builtins) : Term → Option ℚ
  | .null => some 0
  | .bool b => some (if b then 1 else 0)
  | .number n => some n
  | .string s => B.parseNumber s.toList
  | _ => none

open Quantities in
/-- What is documented of reading numbers: decimal numerals stand for themselves, and are read up to the
range of a float. Whatever else is read ends as they do, and is written with digits, signs and the
letters of hexadecimal numerals. -/
structure Builtins.Documented (B : Builtins) : Prop where
  numeral : ∀ s v, numeral? s = some v → |v| < 10 ^ 308 → B.parseNumber s = some v
  exact : ∀ s v w, numeral? s = some v → B.parseNumber s = some w → w = v
  characters : ∀ s v, B.parseNumber s = some v → ∀ c ∈ s, isNumeralChar c = true
  last : ∀ s v, B.parseNumber s = some v → EndsIn isDecimalChar s

/-- Decimal numerals alone. -/
def Builtins.numerals : Builtins where
  parseNumber := Quantities.numeral?
  sprintf format _ := format

theorem Builtins.numerals_documented : Builtins.numerals.Documented where
  numeral _ _ read _ := read
  exact _ _ _ read read' := Option.some.inj (read'.symm.trans read)
  characters _ _ read := (Quantities.numeral?_isSome read).1
  last _ _ read := (Quantities.numeral?_isSome read).2

theorem endsWith_append {s : String} {t : List Char} {suffix : String}
    (ends : s.toList = t ++ suffix.toList) : endsWith (.string s) suffix = true := by
  simp [endsWith, ends]

theorem exists_of_endsWith {s : String} {suffix : String} (ends : endsWith (.string s) suffix = true) :
    ∃ t, s.toList = t ++ suffix.toList := by
  obtain ⟨t, ends⟩ := List.isSuffixOf_iff_suffix.mp ends
  exact ⟨t, ends.symm⟩

theorem toNumber_trimSuffix (B : Builtins) {s : String} {t : List Char} {suffix : String}
    (ends : s.toList = t ++ suffix.toList) :
    (trimSuffix (.string s) suffix).bind (toNumber B) = B.parseNumber t := by
  simp [trimSuffix, toNumber, ends]

/-! ### Checks -/

/-- One check of a policy: what it is to make sure, what it denies, and what it overlooks. -/
structure Check where
  good : Prop
  denied : Prop
  overlooked : Prop

/-- It overlooks just what is neither good nor denied. -/
def Check.Exact (c : Check) : Prop := c.overlooked ↔ ¬c.good ∧ ¬c.denied

/-- What passes every check is good, unless something is overlooked and nothing denied. -/
theorem sound_iff {checks : List Check} (exact : ∀ c ∈ checks, c.Exact) :
    ((∀ c ∈ checks, ¬c.denied) → ∀ c ∈ checks, c.good) ↔
      ((∃ c ∈ checks, c.overlooked) → ∃ c ∈ checks, c.denied) := by
  constructor
  · intro sound ⟨c, member, overlooked⟩
    by_contra undenied
    have clean : ∀ c ∈ checks, ¬c.denied := fun c' member' denied => undenied ⟨c', member', denied⟩
    exact ((exact c member).mp overlooked).1 (sound clean c member)
  · intro covered clean c member
    by_contra notGood
    have overlooked := (exact c member).mpr ⟨notGood, clean c member⟩
    obtain ⟨c', member', denied⟩ := covered ⟨c, member, overlooked⟩
    exact clean c' member' denied

end Rego
