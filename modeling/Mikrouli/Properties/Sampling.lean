import Mikrouli.Lib.Rejection
import Mikrouli.Properties.Routing

/-! Slug generation over every stream of random bytes: which word a stream gives, and how many
streams give a word. -/

namespace Mikrouli

/-! ### What one stream gives -/

theorem length_picked (stream : Nat → UInt8) (n : Nat) :
    (picked stream n).length = min SLUG_LENGTH (letters (firstBytes stream n)).length := by
  rw [← List.length_map (f := letterOf), ← take_letters, List.length_take]

theorem picked_eq_of_full {stream : Nat → UInt8} {m n : Nat}
    (full : ¬(picked stream m).length < SLUG_LENGTH)
    (enough : (picked stream n).length = SLUG_LENGTH) : picked stream m = picked stream n := by
  apply picked_unique _ enough
  rw [length_picked] at full ⊢
  omega

/-- Where the first `n` bytes hold six acceptable ones, `n` buffers are more than enough. -/
theorem buildSlug_of_picked {stream : Nat → UInt8} {n rounds pos : Nat}
    (enough : (picked stream n).length = SLUG_LENGTH) (through : n ≤ pos + rounds) :
    buildSlug stream rounds pos ((picked stream pos).map letterOf) =
      some (String.ofList ((picked stream n).map letterOf)) := by
  induction rounds generalizing pos with
  | zero =>
    -- no round is left, and none is needed: all six have been read
    obtain ⟨k, rfl⟩ := Nat.exists_eq_add_of_le through
    have same : picked stream (n + k) = picked stream n := picked_add enough k
    have full : ¬(picked stream n).length < SLUG_LENGTH := Nat.not_lt.mpr (Nat.le_of_eq enough.symm)
    rw [buildSlug, List.length_map, same, if_neg full]
  | succ rounds ih =>
    rw [buildSlug, List.length_map]
    split
    next short =>
      -- a buffer has at least the two spare bytes, so every round reads on
      have longer : 0 < SLUG_LENGTH - (picked stream pos).length + REJECTION_BUFFER :=
        Nat.add_pos_right _ (by decide)
      simp only
      rw [← take_letters, takeChars_randomBytes, take_letters]
      exact ih (by omega)
    next full => rw [picked_eq_of_full full enough]

theorem generate_of_picked {stream : Nat → UInt8} {n rounds : Nat}
    (enough : (picked stream n).length = SLUG_LENGTH) (through : n ≤ rounds) :
    SlugGeneratorService.generate stream rounds =
      some (String.ofList ((picked stream n).map letterOf)) :=
  buildSlug_of_picked enough (by omega)

/-- Whatever the loop ends with are the images of the first six acceptable bytes. -/
theorem generate_eq_picked {stream : Nat → UInt8} {n rounds : Nat} {slug : String}
    (enough : (picked stream n).length = SLUG_LENGTH)
    (generated : SlugGeneratorService.generate stream rounds = some slug) :
    slug = String.ofList ((picked stream n).map letterOf) := by
  -- the loop has read `m` bytes, more or fewer than `n`
  obtain ⟨m, ended, rfl⟩ := generate_eq_some generated
  have six : (picked stream m).length = SLUG_LENGTH := by
    rw [length_picked]
    omega
  rw [take_letters, picked_unique six enough]

theorem slugWord_picked {stream : Nat → UInt8} {n : Nat}
    (enough : (picked stream n).length = SLUG_LENGTH) :
    SlugWord ((picked stream n).map letterOf) := by
  refine ⟨by rw [List.length_map, enough], fun c member => ?_⟩
  rw [← take_letters] at member
  exact mem_alphabet_of_mem_letters (List.mem_of_mem_take member)

/-- A refill leaves the characters chosen so far. -/
theorem isPrefix_takeChars (buffer : List UInt8) (acc : List Char) :
    acc <+: takeChars buffer acc := by
  induction buffer generalizing acc with
  | nil => exact List.prefix_rfl
  | cons byte buffer ih =>
    simp only [takeChars]
    split
    · cases byteToIndex byte with
      | none => exact ih acc
      | some idx => exact (List.prefix_append acc [letter idx]).trans (ih _)
    · exact List.prefix_rfl

/-- What is left of a buffer is not looked at. -/
theorem takeChars_leftover (buffer rest : List UInt8) {acc : List Char}
    (full : SLUG_LENGTH ≤ (takeChars buffer acc).length) :
    takeChars (buffer ++ rest) acc = takeChars buffer acc := by
  induction buffer generalizing acc with
  | nil =>
    cases rest with
    | nil => rfl
    | cons byte rest =>
      have done : ¬acc.length < SLUG_LENGTH := Nat.not_lt.mpr full
      simp only [List.nil_append, takeChars, if_neg done]
  | cons byte buffer ih =>
    simp only [List.cons_append, takeChars] at full ⊢
    split
    next short =>
      rw [if_pos short] at full
      -- accepted or not, the rest of the buffer goes through the same loop
      cases mapped : byteToIndex byte with
      | none =>
        rw [mapped] at full
        exact ih full
      | some idx =>
        rw [mapped] at full
        exact ih full
    · rfl

/-! ### How many streams give a word -/

/-- Whatever follows them, the generator returns the word from these bytes. -/
def Produces (bytes : List UInt8) (word : List Char) : Prop :=
  ∀ stream, firstBytes stream bytes.length = bytes →
    ∃ rounds, SlugGeneratorService.generate stream rounds = some (String.ofList word)

/-- A source that runs out of acceptable bytes after the given ones. -/
def thenRejected (bytes : List UInt8) (n : Nat) : UInt8 := bytes.getD n 255

theorem firstBytes_thenRejected (bytes : List UInt8) :
    firstBytes (thenRejected bytes) bytes.length = bytes := by
  apply List.ext_getElem
  · simp [randomBytes]
  · intro k _ inside
    simp [randomBytes, thenRejected, inside]

theorem letters_thenRejected (bytes : List UInt8) (k : Nat) :
    letters (firstBytes (thenRejected bytes) (bytes.length + k)) = letters bytes := by
  have rejected : letters (randomBytes (thenRejected bytes) bytes.length k) = [] := by
    rw [letters, List.filterMap_eq_nil_iff]
    intro byte member
    obtain ⟨j, -, rfl⟩ := List.mem_map.mp member
    have beyond : thenRejected bytes (bytes.length + j) = 255 := by simp [thenRejected]
    rw [beyond]
    decide
  rw [firstBytes_add, letters_append, rejected, List.append_nil, firstBytes_thenRejected]

theorem produces_iff {bytes : List UInt8} {word : List Char} (size : word.length = SLUG_LENGTH) :
    Produces bytes word ↔ (letters bytes).take SLUG_LENGTH = word := by
  constructor
  · intro produces
    obtain ⟨rounds, generated⟩ := produces _ (firstBytes_thenRejected bytes)
    obtain ⟨n, enough, same⟩ := generate_eq_some generated
    have six : (picked (thenRejected bytes) n).length = SLUG_LENGTH := by
      rw [length_picked]
      omega
    -- reading on to the end of the given bytes and beyond finds no other letter
    calc (letters bytes).take SLUG_LENGTH
        = (picked (thenRejected bytes) (n + bytes.length)).map letterOf := by
          rw [← take_letters, Nat.add_comm, letters_thenRejected]
      _ = (picked (thenRejected bytes) n).map letterOf := by rw [picked_add six]
      _ = word := by rw [← take_letters, String.ofList_injective same]
  · rintro rfl stream starts
    have enough : (picked stream bytes.length).length = SLUG_LENGTH := by
      rw [← List.length_map (f := letterOf), ← take_letters, starts, size]
    -- as many rounds as bytes are enough to read them all
    refine ⟨_, (generate_of_picked enough (Nat.le_refl _)).trans ?_⟩
    rw [← take_letters, starts]

/-- The index of a letter of the alphabet. -/
def indexOf (c : Char) : Nat := ALPHABET.toList.idxOf c

theorem letter_indexOf {c : Char} (member : c ∈ ALPHABET.toList) : letter (indexOf c) = c := by
  have inRange := List.idxOf_lt_length_of_mem member
  rw [letter, indexOf, List.getD_eq_getElem?_getD, List.getElem?_eq_getElem inRange,
    Option.getD_some, List.getElem_idxOf]

theorem indexOf_letter : ∀ idx < ALPHABET.length, indexOf (letter idx) = idx := by decide

theorem indexOf_lt {c : Char} (member : c ∈ ALPHABET.toList) : indexOf c < ALPHABET.length := by
  rw [← String.length_toList]
  exact List.idxOf_lt_length_of_mem member

/-- The byte that stands for the other index in the same stretch of the alphabet's length. -/
def tradeByte (i j : Nat) (byte : UInt8) : UInt8 :=
  if byte.toNat < MAX_BYTE then
    UInt8.ofNat (ALPHABET.length * (byte.toNat / ALPHABET.length) +
      Equiv.swap i j (byte.toNat % ALPHABET.length))
  else byte

theorem swap_lt {i j k n : Nat} (hi : i < n) (hj : j < n) (hk : k < n) : Equiv.swap i j k < n := by
  rw [Equiv.swap_apply_def]
  split
  · exact hj
  · split
    · exact hi
    · exact hk

/-- Accepted bytes are traded for accepted bytes of the same stretch. -/
theorem toNat_tradeByte {i j : Nat} (hi : i < ALPHABET.length) (hj : j < ALPHABET.length)
    {byte : UInt8} (accepted : byte.toNat < MAX_BYTE) :
    (tradeByte i j byte).toNat = ALPHABET.length * (byte.toNat / ALPHABET.length) +
      Equiv.swap i j (byte.toNat % ALPHABET.length) ∧
    (tradeByte i j byte).toNat < MAX_BYTE := by
  have inRange := swap_lt hi hj (Nat.mod_lt byte.toNat alphabet_pos)
  -- the bound is a multiple of 61, so a stretch lies below it or above it as a whole
  have below : ALPHABET.length * (byte.toNat / ALPHABET.length) +
      Equiv.swap i j (byte.toNat % ALPHABET.length) < MAX_BYTE := by
    rw [maxByte_eq] at accepted ⊢
    rw [length_alphabet] at inRange ⊢
    omega
  have value : (tradeByte i j byte).toNat = ALPHABET.length * (byte.toNat / ALPHABET.length) +
      Equiv.swap i j (byte.toNat % ALPHABET.length) := by
    rw [tradeByte, if_pos accepted, UInt8.toNat_ofNat']
    exact Nat.mod_eq_of_lt (Nat.lt_trans below (by rw [maxByte_eq]; decide))
  exact ⟨value, by rw [value]; exact below⟩

theorem byteToIndex_tradeByte (i j : Nat) (byte : UInt8) (hi : i < ALPHABET.length)
    (hj : j < ALPHABET.length) :
    byteToIndex (tradeByte i j byte) = (byteToIndex byte).map (Equiv.swap i j) := by
  by_cases accepted : byte.toNat < MAX_BYTE
  · obtain ⟨value, below⟩ := toNat_tradeByte hi hj accepted
    have inRange := swap_lt hi hj (Nat.mod_lt byte.toNat alphabet_pos)
    rw [byteToIndex, if_neg (Nat.not_le.mpr below), byteToIndex, if_neg (Nat.not_le.mpr accepted),
      value, Nat.mul_add_mod, Nat.mod_eq_of_lt inRange, Option.map_some]
  -- a rejected byte is left alone
  · rw [tradeByte, if_neg accepted, byteToIndex, if_pos (Nat.not_lt.mp accepted), Option.map_none]

theorem tradeByte_tradeByte (i j : Nat) (byte : UInt8) (hi : i < ALPHABET.length)
    (hj : j < ALPHABET.length) : tradeByte i j (tradeByte i j byte) = byte := by
  by_cases accepted : byte.toNat < MAX_BYTE
  · obtain ⟨value, below⟩ := toNat_tradeByte hi hj accepted
    have inRange := swap_lt hi hj (Nat.mod_lt byte.toNat alphabet_pos)
    apply UInt8.toNat_inj.mp
    rw [(toNat_tradeByte hi hj below).1, value, Nat.mul_add_mod, Nat.mod_eq_of_lt inRange,
      Equiv.swap_apply_self, Nat.mul_add_div alphabet_pos, Nat.div_eq_of_lt inRange, Nat.add_zero,
      Nat.div_add_mod]
  · rw [tradeByte, tradeByte, if_neg accepted, if_neg accepted]

/-- Each index has as many accepted bytes as any other. -/
def tradable : Rejection.Tradable byteToIndex (· < ALPHABET.length) where
  trade := tradeByte
  pick_trade := byteToIndex_tradeByte
  trade_trade := tradeByte_tradeByte

theorem letters_eq_map_filterMap (bytes : List UInt8) :
    letters bytes = (bytes.filterMap byteToIndex).map letter := by
  rw [letters, List.map_filterMap]

theorem byteToIndex_lt {byte : UInt8} {idx : Nat} (mapped : byteToIndex byte = some idx) :
    idx < ALPHABET.length := by
  unfold byteToIndex at mapped
  split at mapped <;> cases mapped
  exact Nat.mod_lt _ alphabet_pos

/-- The bytes produce a word exactly if they sample its indices. -/
theorem produces_iff_sample {bytes : List UInt8} {word : List Char} (slug : SlugWord word) :
    Produces bytes word ↔
      Rejection.sample byteToIndex (word.map indexOf).length bytes = word.map indexOf := by
  rw [produces_iff slug.size, letters_eq_map_filterMap, ← List.map_take, List.length_map, slug.size,
    ← Rejection.sample]
  constructor
  · rintro rfl
    have inRange : ∀ idx ∈ Rejection.sample byteToIndex SLUG_LENGTH bytes, idx < ALPHABET.length := by
      intro idx member
      obtain ⟨byte, -, mapped⟩ := List.mem_filterMap.mp (List.mem_of_mem_take member)
      exact byteToIndex_lt mapped
    rw [List.map_map]
    exact ((List.map_congr_left fun idx member => indexOf_letter idx (inRange idx member)).trans
      (List.map_id' _)).symm
  · intro sampled
    rw [sampled, List.map_map]
    exact (List.map_congr_left fun c member => letter_indexOf (slug.word c member)).trans
      (List.map_id' _)

theorem card_produces {u v : List Char} (first : SlugWord u) (second : SlugWord v) (n : Nat) :
    Nat.card {s : List.Vector UInt8 n // Produces s.toList u} =
      Nat.card {s : List.Vector UInt8 n // Produces s.toList v} := by
  have inRange {w : List Char} (slug : SlugWord w) : ∀ i ∈ w.map indexOf, i < ALPHABET.length := by
    intro i member
    obtain ⟨c, inside, rfl⟩ := List.mem_map.mp member
    exact indexOf_lt (slug.word c inside)
  have streams {w : List Char} (slug : SlugWord w) :
      Nat.card {s : List.Vector UInt8 n // Produces s.toList w} =
        Nat.card (Rejection.Streams byteToIndex n (w.map indexOf)) :=
    Nat.card_congr (Equiv.subtypeEquivRight fun s => produces_iff_sample slug)
  have : Finite UInt8 := Finite.of_injective UInt8.toFin fun _ _ => UInt8.toFin_inj.mp
  -- both counts are of streams that sample a word
  rw [streams first, streams second]
  apply tradable.card_streams (inRange first) (inRange second)
  rw [List.length_map, List.length_map, first.size, second.size]

/-- A stream with six acceptable bytes gives their images, whatever the buffers leave over, and
equally many streams of one length give any two words. -/
theorem generate_exact_unbiased :
    (∀ stream n, (picked stream n).length = SLUG_LENGTH →
      (∀ rounds, n ≤ rounds → SlugGeneratorService.generate stream rounds =
        some (String.ofList ((picked stream n).map letterOf))) ∧
      (∀ rounds slug, SlugGeneratorService.generate stream rounds = some slug →
        slug = String.ofList ((picked stream n).map letterOf)) ∧
      SlugWord ((picked stream n).map letterOf)) ∧
    (∀ buffer acc, acc <+: takeChars buffer acc) ∧
    (∀ buffer rest acc, SLUG_LENGTH ≤ (takeChars buffer acc).length →
      takeChars (buffer ++ rest) acc = takeChars buffer acc) ∧
    ∀ n u v, SlugWord u → SlugWord v →
      Nat.card {s : List.Vector UInt8 n // Produces s.toList u} =
        Nat.card {s : List.Vector UInt8 n // Produces s.toList v} := by
  refine ⟨fun stream n enough => ⟨?_, ?_, ?_⟩, ?_, ?_, ?_⟩
  · exact fun rounds through => generate_of_picked enough through
  · exact fun rounds slug generated => generate_eq_picked enough generated
  · exact slugWord_picked enough
  · exact isPrefix_takeChars
  · exact fun buffer rest acc full => takeChars_leftover buffer rest full
  · exact fun n u v first second => card_produces first second n

/-- The seventh acceptable byte of the first buffer, and all that follow, are left over. -/
theorem generate_exact_unbiased_abc312 :
    SlugGeneratorService.generate (bytesFrom [10, 250, 11, 12, 3, 1, 63, 7]) 8 = some "abc312" ∧
      Nat.card {s : List.Vector UInt8 8 // Produces s.toList "abc312".toList} =
        Nat.card {s : List.Vector UInt8 8 // Produces s.toList "000000".toList} := by
  have word (s : List Char) (size : s.length = SLUG_LENGTH)
      (all : s.all (fun c => decide (c ∈ ALPHABET.toList)) = true) : SlugWord s :=
    ⟨size, fun c member => of_decide_eq_true (List.all_eq_true.mp all c member)⟩
  constructor
  · exact (generate_exact_unbiased.1 (bytesFrom [10, 250, 11, 12, 3, 1, 63, 7]) 8 (by decide)).1 8
      (Nat.le_refl 8)
  · exact generate_exact_unbiased.2.2.2 8 _ _ (word _ (by decide) (by decide))
      (word _ (by decide) (by decide))

end Mikrouli
