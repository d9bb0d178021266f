import Mikrouli.Model.World

/-! `links/slug-generator.service.ts`: rejection sampling over a stream of random bytes. -/

namespace Mikrouli

def MAX_BYTE : Nat := ALPHABET.length * (256 / ALPHABET.length)
def REJECTION_BUFFER : Nat := 2

theorem length_alphabet : ALPHABET.length = 61 := by decide

theorem alphabet_pos : 0 < ALPHABET.length := by
  rw [length_alphabet]
  decide

theorem maxByte_eq : MAX_BYTE = 244 := by rw [MAX_BYTE, length_alphabet]

/-- Maps one random byte to an alphabet index, none when the byte must be rejected. -/
def byteToIndex (byte : UInt8) : Option Nat :=
  -- the bytes from `MAX_BYTE` on would favour the first letters
  if MAX_BYTE ≤ byte.toNat then none else some (byte.toNat % ALPHABET.length)

/-- `ALPHABET[idx]`; an index from `byteToIndex` is always in range. -/
def letter (idx : Nat) : Char := ALPHABET.toList.getD idx '0'

/-- Appends accepted characters until there are enough; the rest of the buffer is not looked at. -/
def takeChars : List UInt8 → List Char → List Char
  | [], acc => acc
  | byte :: buffer, acc =>
    if acc.length < SLUG_LENGTH then
      match byteToIndex byte with
      | some idx => takeChars buffer (acc ++ [letter idx])
      | none => takeChars buffer acc
    else acc

/-- The next `size` bytes of a random source of which `pos` have been read. -/
def randomBytes (stream : Nat → UInt8) (pos size : Nat) : List UInt8 :=
  (List.range size).map fun k => stream (pos + k)

/-- The loop of `buildSlug`, none when it is not through after `rounds` buffers. -/
def buildSlug (stream : Nat → UInt8) : (rounds pos : Nat) → (slug : List Char) → Option String
  | 0, _, slug => if slug.length < SLUG_LENGTH then none else some (String.ofList slug)
  | rounds + 1, pos, slug =>
    if slug.length < SLUG_LENGTH then
      -- spare bytes for the rejected ones
      let size := SLUG_LENGTH - slug.length + REJECTION_BUFFER
      buildSlug stream rounds (pos + size) (takeChars (randomBytes stream pos size) slug)
    else some (String.ofList slug)

namespace SlugGeneratorService

def generate (stream : Nat → UInt8) (rounds : Nat) : Option String := buildSlug stream rounds 0 []

end SlugGeneratorService

/-! ### What the loop computes -/

/-- The characters that the accepted ones among some bytes stand for. -/
def letters (bytes : List UInt8) : List Char :=
  bytes.filterMap fun byte => (byteToIndex byte).map letter

theorem letters_append (first second : List UInt8) :
    letters (first ++ second) = letters first ++ letters second := List.filterMap_append

theorem letters_cons (byte : UInt8) (bytes : List UInt8) :
    letters (byte :: bytes) = ((byteToIndex byte).map letter).toList ++ letters bytes := by
  rw [letters, List.filterMap_cons]
  cases (byteToIndex byte).map letter <;> rfl

theorem takeChars_eq (buffer : List UInt8) {acc : List Char} (short : acc.length ≤ SLUG_LENGTH) :
    takeChars buffer acc = (acc ++ letters buffer).take SLUG_LENGTH := by
  induction buffer generalizing acc with
  | nil =>
    simp only [takeChars, letters, List.filterMap_nil, List.append_nil]
    exact (List.take_of_length_le short).symm
  | cons byte buffer ih =>
    simp only [takeChars]
    split
    next room =>
      cases mapped : byteToIndex byte with
      | none =>
        simp only
        rw [ih short, letters_cons, mapped]
        rfl
      | some idx =>
        have longer : (acc ++ [letter idx]).length ≤ SLUG_LENGTH := by
          simp only [List.length_append, List.length_singleton]
          omega
        simp only
        rw [ih longer, letters_cons, mapped]
        simp
    -- a full slug takes nothing more
    next full =>
      have exact_ : acc.length = SLUG_LENGTH := by omega
      rw [← exact_, List.take_left]

/-- The first `n` bytes of the stream. -/
abbrev firstBytes (stream : Nat → UInt8) (n : Nat) : List UInt8 := randomBytes stream 0 n

theorem firstBytes_add (stream : Nat → UInt8) (pos size : Nat) :
    firstBytes stream (pos + size) = firstBytes stream pos ++ randomBytes stream pos size := by
  simp [randomBytes, List.range_add]

/-- Another buffer leaves what was chosen and goes on with the letters of the stream. -/
theorem takeChars_randomBytes (stream : Nat → UInt8) (pos size : Nat) :
    takeChars (randomBytes stream pos size) ((letters (firstBytes stream pos)).take SLUG_LENGTH) =
      (letters (firstBytes stream (pos + size))).take SLUG_LENGTH := by
  rw [takeChars_eq _ (List.length_take_le _ _), firstBytes_add, letters_append]
  -- whether the buffers so far filled the slug
  by_cases enough : SLUG_LENGTH ≤ (letters (firstBytes stream pos)).length
  · have chosen : ((letters (firstBytes stream pos)).take SLUG_LENGTH).length = SLUG_LENGTH := by
      rw [List.length_take]
      omega
    rw [List.take_append_of_le_length enough,
      List.take_append_of_le_length (Nat.le_of_eq chosen.symm), List.take_take, Nat.min_self]
  · rw [List.take_of_length_le (l := letters (firstBytes stream pos)) (by omega)]

/-- The loop ends with the first six letters of the stream. -/
theorem buildSlug_eq_some {stream : Nat → UInt8} {rounds pos : Nat} {slug : String}
    (built : buildSlug stream rounds pos ((letters (firstBytes stream pos)).take SLUG_LENGTH) =
      some slug) :
    ∃ n, SLUG_LENGTH ≤ (letters (firstBytes stream n)).length ∧
      slug = String.ofList ((letters (firstBytes stream n)).take SLUG_LENGTH) := by
  -- the slug stays the first letters of what was read, so one buffer more keeps the statement
  induction rounds generalizing pos with
  | zero =>
    simp only [buildSlug, List.length_take] at built
    split at built
    · cases built
    · cases built
      exact ⟨pos, by omega, rfl⟩
  | succ rounds ih =>
    simp only [buildSlug] at built
    split at built
    · rw [takeChars_randomBytes] at built
      exact ih built
    next full =>
      rw [List.length_take] at full
      cases built
      exact ⟨pos, by omega, rfl⟩

theorem generate_eq_some {stream : Nat → UInt8} {rounds : Nat} {slug : String}
    (generated : SlugGeneratorService.generate stream rounds = some slug) :
    ∃ n, SLUG_LENGTH ≤ (letters (firstBytes stream n)).length ∧
      slug = String.ofList ((letters (firstBytes stream n)).take SLUG_LENGTH) := by
  have start : buildSlug stream rounds 0 ((letters (firstBytes stream 0)).take SLUG_LENGTH) =
      some slug := generated
  exact buildSlug_eq_some start

theorem letter_mem {idx : Nat} (inRange : idx < ALPHABET.length) :
    letter idx ∈ ALPHABET.toList := by
  rw [← String.length_toList] at inRange
  rw [letter, List.getD_eq_getElem?_getD, List.getElem?_eq_getElem inRange, Option.getD_some]
  exact List.getElem_mem inRange

theorem mem_alphabet_of_mem_letters {bytes : List UInt8} {c : Char} (member : c ∈ letters bytes) :
    c ∈ ALPHABET.toList := by
  obtain ⟨byte, -, mapped⟩ := List.mem_filterMap.mp member
  obtain ⟨idx, index, rfl⟩ := Option.map_eq_some_iff.mp mapped
  unfold byteToIndex at index
  split at index
  · cases index
  · cases index
    exact letter_mem (Nat.mod_lt _ alphabet_pos)

/-- A generated slug is one the command `generateSlug` may draw. -/
theorem asSlug_of_generate {stream : Nat → UInt8} {rounds : Nat} {slug : String}
    (generated : SlugGeneratorService.generate stream rounds = some slug) :
    (asSlug slug).map Subtype.val = some slug := by
  obtain ⟨n, enough, rfl⟩ := generate_eq_some generated
  have size : (String.ofList ((letters (firstBytes stream n)).take SLUG_LENGTH)).length =
      SLUG_LENGTH := by
    rw [String.length_ofList, List.length_take]
    omega
  have word : ((letters (firstBytes stream n)).take SLUG_LENGTH).all
      (fun c => decide (c ∈ ALPHABET.toList)) = true := by
    rw [List.all_eq_true]
    intro c member
    exact decide_eq_true (mem_alphabet_of_mem_letters (List.mem_of_mem_take member))
  simp only [asSlug, size, ↓reduceDIte, String.toList_ofList, word, ↓reduceIte, Option.map_some]

end Mikrouli
