import Mathlib.Data.List.Basic

/-! Regular expressions the way a backtracking engine runs them: alternatives in order,
anchors, captures, and a search that tries every position. -/

/-- `start` and `stop` are the anchors; an engine's `$` also matches before a final newline. -/
inductive Regex where
  | empty
  | char (accepts : Char → Bool)
  | start
  | stop
  | seq (r s : Regex)
  | alt (r s : Regex)
  | group (r : Regex)

namespace Regex

/-- Where the engine is: what it has read, newest first, what is left, and the captures. -/
structure Cursor where
  read : List Char
  left : List Char
  captures : List String

/-- The cursors after a match that begins at `c`, best first. -/
def run : Regex → Cursor → List Cursor
  | .empty, c => [c]
  | .char accepts, c =>
    match c.left with
    | [] => []
    | x :: left => if accepts x then [⟨x :: c.read, left, c.captures⟩] else []
  | .start, c => if c.read = [] then [c] else []
  | .stop, c => if c.left = [] ∨ c.left = ['\n'] then [c] else []
  | .seq r s, c => (r.run c).flatMap s.run
  | .alt r s, c => r.run c ++ s.run c
  | .group r, c => (r.run c).map fun c' =>
      let text := (c'.read.take (c'.read.length - c.read.length)).reverse
      { c' with captures := c'.captures ++ [String.ofList text] }

/-- Tries the position after `read`, and if that fails the ones further on. -/
def searchFrom (r : Regex) (read : List Char) : List Char → Option (List String)
  | [] => (r.run ⟨read, [], []⟩).head?.map Cursor.captures
  | x :: left =>
    match (r.run ⟨read, x :: left, []⟩).head? with
    | some c => some c.captures
    | none => r.searchFrom (x :: read) left

/-- The captures of the first match anywhere in the input. -/
def search (r : Regex) (input : List Char) : Option (List String) := r.searchFrom [] input

/-! ### Building expressions -/

def lit (x : Char) : Regex := .char fun y => decide (y = x)

def word : List Char → Regex
  | [] => .empty
  | x :: xs => .seq (lit x) (word xs)

/-- A word in any letter case. -/
def wordCI : List Char → Regex
  | [] => .empty
  | x :: xs => .seq (.char fun y => decide (y.toLower = x.toLower)) (wordCI xs)

def anyOf (r : Regex) : List Regex → Regex
  | [] => r
  | s :: rest => .alt r (s.anyOf rest)

def times (r : Regex) : Nat → Regex
  | 0 => .empty
  | n + 1 => .seq r (r.times n)

/-! ### What a match reads -/

variable {p : Char → Bool}

/-- Every match of the expression reads a character that satisfies `p`. -/
def Needs (p : Char → Bool) : Regex → Prop
  | .char accepts => ∀ x, accepts x = true → p x = true
  | .seq r s => r.Needs p ∨ s.Needs p
  | .alt r s => r.Needs p ∧ s.Needs p
  | .group r => r.Needs p
  | .empty | .start | .stop => False

/-- A match only moves on: what is left afterwards was left before. -/
theorem left_of_mem_run {r : Regex} {c c' : Cursor} (matched : c' ∈ r.run c) :
    ∀ x ∈ c'.left, x ∈ c.left := by
  induction r generalizing c c' with
  | empty =>
    simp only [run, List.mem_singleton] at matched
    subst matched
    exact fun x => id
  | char accepts =>
    simp only [run] at matched
    split at matched
    · simp at matched
    next y left rest =>
      split at matched
      · simp only [List.mem_singleton] at matched
        subst matched
        intro x member
        rw [rest]
        exact List.mem_cons_of_mem y member
      · simp at matched
  | start =>
    simp only [run] at matched
    split at matched
    · simp only [List.mem_singleton] at matched
      subst matched
      exact fun x => id
    · simp at matched
  | stop =>
    simp only [run] at matched
    split at matched
    · simp only [List.mem_singleton] at matched
      subst matched
      exact fun x => id
    · simp at matched
  | seq r s first second =>
    obtain ⟨c₁, before, after⟩ := List.mem_flatMap.mp matched
    exact fun x member => first before x (second after x member)
  | alt r s first second =>
    rcases List.mem_append.mp matched with before | after
    · exact first before
    · exact second after
  | group r inner =>
    obtain ⟨c₁, before, rfl⟩ := List.mem_map.mp matched
    exact fun x member => inner before x member

/-- Where no character is one the expression needs, it does not match. -/
theorem run_eq_nil_of_needs {r : Regex} (needs : r.Needs p) {c : Cursor}
    (lacks : ∀ x ∈ c.left, p x = false) : r.run c = [] := by
  induction r generalizing c with
  | empty | start | stop => exact needs.elim
  | char accepts =>
    simp only [run]
    split
    · rfl
    next x left rest =>
      have other := lacks x (by rw [rest]; exact List.mem_cons_self)
      rw [if_neg]
      intro accepted
      have has := needs x accepted
      rw [other] at has
      cases has
  | seq r s first second =>
    simp only [run, List.flatMap_eq_nil_iff]
    intro c' matched
    rcases needs with inFirst | inSecond
    · rw [first inFirst lacks] at matched
      cases matched
    · exact second inSecond fun x member => lacks x (left_of_mem_run matched x member)
  | alt r s first second =>
    simp only [run, first needs.1 lacks, second needs.2 lacks, List.append_nil]
  | group r inner =>
    simp only [run, inner needs lacks, List.map_nil]

theorem searchFrom_eq_none_of_needs {r : Regex} (needs : r.Needs p) {read left : List Char}
    (lacks : ∀ x ∈ left, p x = false) : r.searchFrom read left = none := by
  induction left generalizing read with
  | nil =>
    have stuck : r.run ⟨read, [], []⟩ = [] := run_eq_nil_of_needs needs lacks
    rw [searchFrom, stuck]
    rfl
  | cons x left ih =>
    have stuck : r.run ⟨read, x :: left, []⟩ = [] := run_eq_nil_of_needs needs lacks
    rw [searchFrom, stuck]
    exact ih fun y member => lacks y (List.mem_cons_of_mem x member)

/-- An input without the characters an expression needs does not match it. -/
theorem search_eq_none_of_needs {r : Regex} (needs : r.Needs p) {input : List Char}
    (lacks : ∀ x ∈ input, p x = false) : r.search input = none :=
  searchFrom_eq_none_of_needs needs lacks

/-! ### Anchored expressions -/

/-- The engine reads `n` characters of a class where they are there to be read. -/
theorem run_times_char (accepts : Char → Bool) (n : Nat) (c : Cursor) :
    ((Regex.char accepts).times n).run c =
      if n ≤ c.left.length ∧ (c.left.take n).all accepts = true then
        [⟨(c.left.take n).reverse ++ c.read, c.left.drop n, c.captures⟩] else [] := by
  induction n generalizing c with
  | zero => simp [times, run]
  | succ n ih =>
    simp only [times, run]
    obtain ⟨read, left, captures⟩ := c
    cases left with
    | nil => simp
    | cons x left =>
      by_cases accepted : accepts x = true
      · simp [accepted, ih]
      · simp [accepted]

theorem searchFrom_start_of_ne {s : Regex} {read : List Char} (begun : read ≠ [])
    (left : List Char) : (Regex.seq .start s).searchFrom read left = none := by
  induction left generalizing read with
  | nil => simp [searchFrom, run, begun]
  | cons x left ih =>
    simp only [searchFrom, run, begun, ↓reduceIte, List.flatMap_nil, List.head?_nil]
    exact ih (List.cons_ne_nil x read)

/-- An expression anchored at the start is tried there only. -/
theorem search_start (s : Regex) (input : List Char) :
    (Regex.seq .start s).search input =
      (s.run ⟨[], input, []⟩).head?.map Cursor.captures := by
  have first : (Regex.seq .start s).run ⟨[], input, []⟩ = s.run ⟨[], input, []⟩ := by
    simp [run]
  cases input with
  | nil => simp only [search, searchFrom, first]
  | cons x left =>
    simp only [search, searchFrom, first]
    cases s.run ⟨[], x :: left, []⟩ with
    | nil => exact searchFrom_start_of_ne (List.cons_ne_nil x []) left
    | cons c rest => rfl

/-- A leading character, then a captured group of as many characters of a class as the rest of
the input has: the group captures the rest, or nothing matches. -/
theorem search_captured (x : Char) (accepts : Char → Bool) {text : List Char} :
    (Regex.seq .start (.seq (lit x) (.seq (.group ((Regex.char accepts).times text.length)) .stop))).search
        (x :: text) =
      if text.all accepts = true then some [String.ofList text] else none := by
  have classRun := run_times_char accepts text.length ⟨[x], text, []⟩
  simp only [Nat.le_refl, List.take_length, List.drop_length, true_and] at classRun
  rw [search_start]
  by_cases accepted : text.all accepts = true
  · rw [if_pos accepted] at classRun
    simp only [run, lit, decide_true, ↓reduceIte, List.flatMap_cons, List.flatMap_nil,
      List.append_nil, classRun, List.map_cons, List.map_nil, true_or, List.head?_cons,
      Option.map_some, List.nil_append, accepted]
    simp
  · rw [if_neg accepted] at classRun
    rw [if_neg accepted]
    simp only [run, lit, decide_true, ↓reduceIte, List.flatMap_cons, List.flatMap_nil,
      List.append_nil, classRun, List.map_nil, List.head?_nil, Option.map_none]

end Regex
