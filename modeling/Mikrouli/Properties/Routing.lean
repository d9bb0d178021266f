import Mikrouli.Model.Edge
import Mikrouli.Model.Slugs

/-! Which generated slugs reach the redirect handler through each edge. -/

namespace Mikrouli

/-! ### Words of the alphabet -/

/-- Six characters of the alphabet. -/
structure SlugWord (s : List Char) : Prop where
  size : s.length = SLUG_LENGTH
  word : ∀ c ∈ s, c ∈ ALPHABET.toList

theorem isWordChar_of_mem : ∀ c ∈ ALPHABET.toList, isWordChar c = true :=
  List.all_eq_true.mp (by decide)

theorem alphanum_iff_of_mem : ∀ c ∈ ALPHABET.toList, c.isAlphanum = true ↔ c ≠ '_' := by
  have all : (ALPHABET.toList.all fun c => decide (c.isAlphanum = true ↔ c ≠ '_')) = true := by
    decide
  exact fun c member => of_decide_eq_true (List.all_eq_true.mp all c member)

theorem not_separator_of_mem : ∀ c ∈ ALPHABET.toList, c ≠ '/' ∧ c ≠ '.' := by
  have all : (ALPHABET.toList.all fun c => decide (c ≠ '/' ∧ c ≠ '.')) = true := by decide
  exact fun c member => of_decide_eq_true (List.all_eq_true.mp all c member)

variable {s : List Char}

theorem SlugWord.no_slash (slug : SlugWord s) : '/' ∉ s :=
  fun member => (not_separator_of_mem '/' (slug.word '/' member)).1 rfl

theorem SlugWord.no_dot (slug : SlugWord s) : ∀ c ∈ '/' :: s, decide (c = '.') = false := by
  intro c member
  rcases List.mem_cons.mp member with rfl | inside
  · decide
  · exact decide_eq_false (not_separator_of_mem c (slug.word c inside)).2

/-! ### The edges -/

theorem dotfiles_captures (slug : SlugWord s) : dotfiles.captures? ('/' :: s) = none := by
  refine Regex.search_eq_none_of_needs (p := fun c => decide (c = '.')) ?_ slug.no_dot
  exact .inr fun c dot => dot

theorem assets_captures (slug : SlugWord s) : assets.captures? ('/' :: s) = none := by
  refine Regex.search_eq_none_of_needs (p := fun c => decide (c = '.')) ?_ slug.no_dot
  exact .inl fun c dot => dot

theorem shortLinks_captures (slug : SlugWord s) (accepts : Char → Bool) :
    (shortLinks accepts).captures? ('/' :: s) =
      if s.all accepts = true then some [String.ofList s] else none := by
  have size : s.length = 6 := slug.size
  rw [shortLinks, ← size]
  exact Regex.search_captured '/' accepts

/-- No location names the path of a slug. -/
theorem not_exact (slug : SlugWord s) (edge : Edge) :
    edge.locations.find? (Location.isExact ('/' :: s)) = none := by
  -- the exact locations are longer or shorter than a slug
  have other : ∀ name : List Char, name.length ≠ SLUG_LENGTH → ¬name = s := by
    intro name size same
    exact size (same ▸ slug.size)
  cases edge with
  | compose =>
    have page := other "50x.html".toList (by decide)
    simpa [Edge.locations, composeLocations, Location.isExact, dotfiles, shortLinks] using page
  | k8s =>
    have config := other "config.js".toList (by decide)
    have connect := other "connect".toList (by decide)
    simpa [Edge.locations, k8sLocations, Location.isExact, dotfiles, shortLinks, assets]
      using And.intro config connect

theorem select_compose (slug : SlugWord s) :
    Location.select Edge.compose.locations ('/' :: s) =
      some (shortLinks isWordChar, [String.ofList s]) := by
  have all : s.all isWordChar = true :=
    List.all_eq_true.mpr fun c member => isWordChar_of_mem c (slug.word c member)
  have captured := shortLinks_captures slug isWordChar
  rw [if_pos all] at captured
  rw [Location.select, not_exact slug]
  simp only [Edge.locations, composeLocations, List.findSome?_cons, dotfiles_captures slug,
    Option.map_none, captured, Option.map_some]

/-- A word with an underscore is left to the web app. -/
theorem select_k8s (slug : SlugWord s) :
    Location.select Edge.k8s.locations ('/' :: s) =
      if '_' ∈ s then some (⟨.below "/".toList, .spa⟩, [])
      else some (shortLinks Char.isAlphanum, [String.ofList s]) := by
  have captured := shortLinks_captures slug Char.isAlphanum
  have all : s.all Char.isAlphanum = true ↔ '_' ∉ s := by
    rw [List.all_eq_true]
    constructor
    · intro alphanum underscore
      exact (alphanum_iff_of_mem '_' (slug.word '_' underscore)).mp (alphanum '_' underscore) rfl
    · intro absent c member
      refine (alphanum_iff_of_mem c (slug.word c member)).mpr fun underscore => ?_
      exact absent (underscore ▸ member)
  rw [Location.select, not_exact slug]
  by_cases underscore : '_' ∈ s
  · rw [if_neg fun alphanum => all.mp alphanum underscore] at captured
    have api : ("/api/".toList.isPrefixOf ('/' :: s)) = false := by
      rw [Bool.eq_false_iff]
      intro begins
      obtain ⟨rest, same⟩ := List.isPrefixOf_iff_prefix.mp begins
      -- the second slash of the location would be one of the slug's characters
      have tail : "api/".toList ++ rest = s := (List.cons.inj same).2
      refine slug.no_slash ?_
      rw [← tail]
      simp
    -- no regular expression matches, so the longest prefix takes the path
    have first : Location.longest ('/' :: s) k8sLocations = some ⟨.below "/".toList, .spa⟩ := by
      simp only [k8sLocations, Location.longest, dotfiles, shortLinks, assets,
        Location.covers?_exactly, Location.covers?_matching, Location.covers?_below, api]
      simp
    simp only [Edge.locations, first, Option.map_some, underscore, ↓reduceIte]
    simp [k8sLocations, List.findSome?_cons, dotfiles_captures slug, assets_captures slug, captured]
  · rw [if_pos (all.mpr underscore)] at captured
    simp [Edge.locations, k8sLocations, List.findSome?_cons, dotfiles_captures slug, captured,
      underscore]

/-! ### The application -/

theorem splitOn_slug (slug : SlugWord s) :
    ("/api/".toList ++ s).splitOn '/' = [[], "api".toList, s] := by
  have path : "/api/".toList ++ s = [] ++ '/' :: ("api".toList ++ '/' :: s) := rfl
  rw [path, List.splitOn_append_cons_self_of_not_mem (by simp),
    List.splitOn_append_cons_self_of_not_mem (by decide), List.splitOn_eq_singleton slug.no_slash]

/-- A route with one fixed segment is for a slug only if it is the slug's word. -/
theorem matchSegments_fixed (s : List Char) (name : String) :
    matchSegments [.fixed "api", .fixed name] ["api".toList, s] =
      if s.map Char.toLower = name.toList.map Char.toLower then some [] else none := by
  simp [matchSegments]

theorem matchSegments_longer (s : List Char) (first second : Segment) (more : List Segment) :
    matchSegments (.fixed "api" :: first :: second :: more) ["api".toList, s] = none := by
  cases first <;> cases second <;> simp [matchSegments]

/-- Of the routes with one segment only the health check has a name of six characters. -/
theorem dispatch_slug (slug : SlugWord s) :
    dispatch ("/api/".toList ++ s) =
      if s.map Char.toLower = "health".toList then .handler .health []
      else .handler .redirect [("slug", String.ofList s)] := by
  -- all other names of one segment have another length
  have differs : ∀ name : String, name.toList.length ≠ SLUG_LENGTH →
      matchSegments [.fixed "api", .fixed name] ["api".toList, s] = none := by
    intro name other
    rw [matchSegments_fixed, if_neg]
    intro same
    have length := congrArg List.length same
    rw [List.length_map, List.length_map, slug.size] at length
    exact other length.symm
  have named : s ≠ [] := by
    rintro rfl
    exact absurd slug.size (by decide)
  have redirects : matchSegments [.fixed "api", .param "slug"] ["api".toList, s] =
      some [("slug", String.ofList s)] := by
    simp [matchSegments, named]
  have health := matchSegments_fixed s "health"
  rw [show "health".toList.map Char.toLower = "health".toList by decide] at health
  rw [dispatch, splitOn_slug slug]
  by_cases word : s.map Char.toLower = "health".toList
  · rw [if_pos word] at health ⊢
    simp only [List.drop_succ_cons, List.drop_zero, routes, route, List.findSome?_cons, health,
      differs "docs" (by decide), differs "docs-json" (by decide), differs "docs-yaml" (by decide),
      ↓reduceIte, Option.map_none, Option.map_some]
  · rw [if_neg word] at health ⊢
    simp only [List.drop_succ_cons, List.drop_zero, routes, route, List.findSome?_cons, health,
      differs "docs" (by decide), differs "docs-json" (by decide), differs "docs-yaml" (by decide),
      differs "api-keys" (by decide), differs "usage" (by decide), differs "urls" (by decide),
      matchSegments_longer, redirects, reduceCtorEq, ↓reduceIte, Option.map_none, Option.map_some]

/-! ### From the random bytes to the handler -/

def letterOf (byte : UInt8) : Char := letter (byte.toNat % ALPHABET.length)

/-- The first six bytes below the rejection bound among the first `n` of the stream. -/
def picked (stream : Nat → UInt8) (n : Nat) : List UInt8 :=
  ((firstBytes stream n).filter fun b => decide (b.toNat < MAX_BYTE)).take SLUG_LENGTH

/-- None of the bytes stands for an underscore where the edge is the cluster's, and together they
do not spell the name of the health check. -/
structure Routable (edge : Edge) (bytes : List UInt8) : Prop where
  underscore : edge = .k8s → ∀ b ∈ bytes, b.toNat % ALPHABET.length ≠ 60
  health : bytes.map (fun b => (letterOf b).toLower) ≠ "health".toList

theorem letters_eq_map (bytes : List UInt8) :
    letters bytes = (bytes.filter fun b => decide (b.toNat < MAX_BYTE)).map letterOf := by
  induction bytes with
  | nil => rfl
  | cons b bytes ih =>
    by_cases accepted : b.toNat < MAX_BYTE
    · have index : (byteToIndex b).map letter = some (letterOf b) := by
        rw [byteToIndex, if_neg (Nat.not_le.mpr accepted)]
        rfl
      rw [letters_cons, index, List.filter_cons_of_pos (by simpa using accepted), List.map_cons, ← ih]
      rfl
    · have rejected : (byteToIndex b).map letter = none := by
        rw [byteToIndex, if_pos (Nat.not_lt.mp accepted)]
        rfl
      rw [letters_cons, rejected, List.filter_cons_of_neg (by simpa using accepted), ← ih]
      rfl

theorem take_letters (stream : Nat → UInt8) (n : Nat) :
    (letters (firstBytes stream n)).take SLUG_LENGTH = (picked stream n).map letterOf := by
  rw [letters_eq_map, picked, List.map_take]

/-- Once there are six of them, later bytes change nothing. -/
theorem picked_add {stream : Nat → UInt8} {n : Nat} (enough : (picked stream n).length = SLUG_LENGTH)
    (k : Nat) : picked stream (n + k) = picked stream n := by
  rw [picked, List.length_take] at enough
  rw [picked, picked, firstBytes_add, List.filter_append, List.take_append_of_le_length (by omega)]

theorem picked_unique {stream : Nat → UInt8} {n m : Nat}
    (enough : (picked stream n).length = SLUG_LENGTH)
    (enough' : (picked stream m).length = SLUG_LENGTH) : picked stream n = picked stream m := by
  rcases Nat.le_total n m with le | le
  · obtain ⟨k, rfl⟩ := Nat.exists_eq_add_of_le le
    exact (picked_add enough k).symm
  · obtain ⟨k, rfl⟩ := Nat.exists_eq_add_of_le le
    exact picked_add enough' k

theorem letter_eq_underscore : ∀ idx < ALPHABET.length, letter idx = '_' ↔ idx = 60 := by decide

theorem underscore_mem_iff (bytes : List UInt8) :
    '_' ∈ bytes.map letterOf ↔ ∃ b ∈ bytes, b.toNat % ALPHABET.length = 60 := by
  rw [List.mem_map]
  refine exists_congr fun b => and_congr_right fun _ => ?_
  exact letter_eq_underscore _ (Nat.mod_lt _ alphabet_pos)

theorem arrive_eq (slug : SlugWord s) (edge : Edge) :
    arrive edge ('/' :: s) =
      if edge = .k8s ∧ '_' ∈ s then .webApp else dispatch ("/api/".toList ++ s) := by
  cases edge with
  | compose =>
    rw [arrive, select_compose slug]
    simp [shortLinks]
  | k8s =>
    rw [arrive, select_k8s slug]
    by_cases underscore : '_' ∈ s
    · simp [underscore]
    · simp [underscore, shortLinks]

theorem arrive_slug (slug : SlugWord s) (edge : Edge) :
    arrive edge ('/' :: s) = .handler .redirect [("slug", String.ofList s)] ↔
      (edge = .k8s → '_' ∉ s) ∧ s.map Char.toLower ≠ "health".toList := by
  rw [arrive_eq slug, dispatch_slug slug]
  by_cases left : edge = .k8s ∧ '_' ∈ s
  · rw [if_pos left]
    simp [left.1, left.2]
  · rw [if_neg left]
    have passes : edge = .k8s → '_' ∉ s := fun same member => left ⟨same, member⟩
    split
    next health => simp [health]
    next other => exact iff_of_true rfl ⟨passes, other⟩

/-- A generated slug is served by the redirect handler under its own name exactly if its bytes are
routable through the edge. -/
theorem generated_slug_routed_iff {stream : Nat → UInt8} {rounds : Nat} {slug : String}
    (generated : SlugGeneratorService.generate stream rounds = some slug) (edge : Edge) :
    arrive edge ('/' :: slug.toList) = .handler .redirect [("slug", slug)] ↔
      ∀ n, (picked stream n).length = SLUG_LENGTH → Routable edge (picked stream n) := by
  obtain ⟨n, enough, rfl⟩ := generate_eq_some generated
  rw [take_letters, String.toList_ofList]
  have six : (picked stream n).length = SLUG_LENGTH := by
    rw [← List.length_map (f := letterOf), ← take_letters, List.length_take]
    omega
  have word : SlugWord ((picked stream n).map letterOf) := by
    refine ⟨by rw [List.length_map, six], fun c member => ?_⟩
    rw [← take_letters] at member
    exact mem_alphabet_of_mem_letters (List.mem_of_mem_take member)
  rw [arrive_slug word, underscore_mem_iff, List.map_map]
  constructor
  · rintro ⟨underscore, health⟩ m six'
    rw [picked_unique six' six]
    refine ⟨fun same b member index => ?_, health⟩
    exact underscore same ⟨b, member, index⟩
  · intro routable
    obtain ⟨underscore, health⟩ := routable n six
    exact ⟨fun same stands => stands.elim fun b index => underscore same b index.1 index.2, health⟩

/-- A source whose first bytes are given. -/
def bytesFrom (bytes : List UInt8) (n : Nat) : UInt8 := bytes.getD n 0

theorem generated_slug_routed_iff_abc312 :
    SlugGeneratorService.generate (bytesFrom [10, 11, 12, 3, 1, 2]) 1 = some "abc312" ∧
      (arrive .k8s "/abc312".toList = .handler .redirect [("slug", "abc312")] ↔
        ∀ n, (picked (bytesFrom [10, 11, 12, 3, 1, 2]) n).length = SLUG_LENGTH →
          Routable .k8s (picked (bytesFrom [10, 11, 12, 3, 1, 2]) n)) := by
  have generated : SlugGeneratorService.generate (bytesFrom [10, 11, 12, 3, 1, 2]) 1 =
      some "abc312" := by decide
  exact ⟨generated, generated_slug_routed_iff generated .k8s⟩

/-- The cluster's edge leaves a slug with an underscore to the web app, and either edge hands a slug
that spells the health check to it. -/
theorem generated_slugs_stranded :
    ¬∀ (stream : Nat → UInt8) (rounds : Nat) (slug : String),
      SlugGeneratorService.generate stream rounds = some slug →
      ∀ edge, arrive edge ('/' :: slug.toList) = .handler .redirect [("slug", slug)] := by
  intro always
  have served := always (bytesFrom [10, 11, 12, 60, 1, 2]) 1 "abc_12" (by decide) .k8s
  have stranded : arrive .k8s "/abc_12".toList = .webApp := by decide
  rw [show '/' :: "abc_12".toList = "/abc_12".toList by rfl, stranded] at served
  cases served

end Mikrouli
