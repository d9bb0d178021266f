import Mikrouli.Properties.Tracing

/-! What the sanitiser changes of a record of attributes, and that it has nothing left to change. -/

namespace Mikrouli.Tracing

open FormUrlencoded

variable {attrs : Attributes} {url : String}

/-! ### Urls -/

/-- The pairs after the first question mark. -/
def pairs (url : String) : Params := ofString (query url)

/-- A url without the values of sensitive parameters: the part before the question mark is as it was,
and the pairs after it are too, but that a sensitive name stands only where it came first. The
question mark goes with the last pair. -/
structure RedactedUrl (url url' : String) : Prop where
  before : base url' = base url
  after : pairs url' = blankFirst REDACTED_VALUE PII_QUERY_PARAMS [] (pairs url)
  mark : '?' ∈ url'.toList ↔ '?' ∈ url.toList ∧ pairs url ≠ []
  plain : '?' ∉ url.toList → url' = url

theorem base_of_not_mem (absent : '?' ∉ url.toList) : base url = url := by
  rw [base, List.takeWhile_eq_self_iff.mpr, String.ofList_toList]
  intro c member
  exact decide_eq_true fun mark => absent (mark ▸ member)

theorem pairs_of_not_mem (absent : '?' ∉ url.toList) : pairs url = [] := by
  have nothing : url.toList.dropWhile (· ≠ '?') = [] := by
    rw [List.dropWhile_eq_nil_iff]
    intro c member
    exact decide_eq_true fun mark => absent (mark ▸ member)
  rw [pairs, query, nothing]
  rfl

theorem not_mem_base : '?' ∉ (base url).toList := by
  intro mark
  rw [base, String.toList_ofList] at mark
  have other := List.mem_takeWhile_imp mark
  simp at other

theorem split_joined {s t : String} (plain : '?' ∉ s.toList) :
    base (s ++ "?" ++ t) = s ∧ query (s ++ "?" ++ t) = t := by
  have before : ∀ c ∈ s.toList, decide (c ≠ '?') = true := fun c member =>
    decide_eq_true fun mark => plain (mark ▸ member)
  have whole : (s ++ "?" ++ t).toList = s.toList ++ '?' :: t.toList := by simp
  constructor
  · rw [base, whole, List.takeWhile_append_of_pos before]
    simp
  · rw [query, whole, List.dropWhile_append_of_pos before]
    simp

theorem toString_eq_empty {params : Params} :
    (FormUrlencoded.toString params).toList.length = 0 ↔ params = [] := by
  constructor
  · intro empty
    rw [← ofString_toString params, String.toList_eq_nil_iff.mp (List.length_eq_zero_iff.mp empty)]
    rfl
  · rintro rfl
    rfl

theorem redactSearchParams_eq (params : Params) :
    redactSearchParams params = blankFirst REDACTED_VALUE PII_QUERY_PARAMS [] params :=
  foldl_blank_eq

theorem redactSearchParams_eq_nil {params : Params} : redactSearchParams params = [] ↔ params = [] := by
  rw [redactSearchParams_eq]
  cases params with
  | nil => exact iff_of_true rfl rfl
  | cons p params =>
    -- the first pair is never left out
    rw [blankFirst]
    split <;> simp

/-- A url without a query, one whose query has no pairs, and one with pairs. -/
theorem redactQueryString_cases (url : String) :
    '?' ∉ url.toList ∧ redactQueryString url = url ∨
      '?' ∈ url.toList ∧ pairs url = [] ∧ redactQueryString url = base url ∨
      '?' ∈ url.toList ∧ pairs url ≠ [] ∧ redactQueryString url =
        base url ++ "?" ++ FormUrlencoded.toString (redactSearchParams (pairs url)) := by
  by_cases mark : '?' ∈ url.toList
  · rw [redactQueryString, if_pos mark]
    by_cases empty : pairs url = []
    · refine .inr (.inl ⟨mark, empty, if_pos ?_⟩)
      exact toString_eq_empty.mpr (redactSearchParams_eq_nil.mpr empty)
    · refine .inr (.inr ⟨mark, empty, if_neg fun gone => empty ?_⟩)
      exact redactSearchParams_eq_nil.mp (toString_eq_empty.mp gone)
  · exact .inl ⟨mark, if_neg mark⟩

theorem redactQueryString_redacted (url : String) : RedactedUrl url (redactQueryString url) := by
  have plain : '?' ∉ (base url).toList := not_mem_base
  obtain ⟨absent, same⟩ | ⟨mark, empty, same⟩ | ⟨mark, filled, same⟩ := redactQueryString_cases url
  · rw [same]
    constructor
    case before => rfl
    case after =>
      rw [pairs_of_not_mem absent]
      rfl
    case mark => exact iff_of_false absent fun left => absent left.1
    case plain => exact fun _ => rfl
  · rw [same]
    constructor
    case before => exact base_of_not_mem plain
    case after =>
      rw [pairs_of_not_mem plain, empty]
      rfl
    case mark => exact iff_of_false plain fun left => left.2 empty
    case plain => exact fun absent => absurd mark absent
  · obtain ⟨first, second⟩ := split_joined plain
    rw [same]
    constructor
    case before => exact first
    case after => rw [pairs, second, ofString_toString, redactSearchParams_eq]
    case mark => exact iff_of_true (by simp) ⟨mark, filled⟩
    case plain => exact fun absent => absurd mark absent

/-- A redacted url is not redacted further. -/
theorem redactQueryString_idem (url : String) :
    redactQueryString (redactQueryString url) = redactQueryString url := by
  rw [redactQueryString_eq_self]
  intro mark
  have plain : '?' ∉ (base url).toList := not_mem_base
  obtain ⟨absent, same⟩ | ⟨-, -, same⟩ | ⟨-, filled, same⟩ := redactQueryString_cases url
  · rw [same] at mark
    exact absurd mark absent
  · rw [same] at mark
    exact absurd mark plain
  · -- the query was serialized, with every sensitive name blanked
    rw [same, (split_joined plain).2]
    constructor
    case filled =>
      intro empty
      refine filled (redactSearchParams_eq_nil.mp (toString_eq_empty.mp ?_))
      rw [empty]
      rfl
    case serialized => rw [ofString_toString]
    case redacted =>
      intro name member
      rw [ofString_toString]
      exact blanked_foldl member

/-! ### Records -/

/-- What a sanitised copy has of a record. -/
structure Sanitised (attrs out : Attributes) : Prop where
  keys : ∀ key, (out key).isSome = (attrs key).isSome
  personal : ∀ key, isPiiKey key = true → (attrs key).isSome → out key = some (.str REDACTED_VALUE)
  urls : ∀ key url, isUrlLikeKey key = true → attrs key = some (.str url) →
    ∃ url', out key = some (.str url') ∧ RedactedUrl url url'
  others : ∀ key v, isPiiKey key = false → (∀ url, v = .str url → isUrlLikeKey key = false) →
    attrs key = some v → out key = some v

theorem redactValueFor_idem (key : String) (v : Json) :
    redactValueFor key (redactValueFor key v) = redactValueFor key v := by
  by_cases pii : isPiiKey key = true
  · simp [redactValueFor, pii]
  cases v with
  | str url =>
    by_cases urlLike : isUrlLikeKey key = true
    · simp [redactValueFor, pii, urlLike, redactQueryString_idem]
    · simp [redactValueFor, pii, urlLike]
  | _ => simp [redactValueFor, pii]

theorem sanitiseAttributes_idem (attrs : Attributes) :
    sanitiseAttributes (sanitiseAttributes attrs) = sanitiseAttributes attrs := by
  funext key
  by_cases proto : key = "__proto__"
  · rw [sanitiseAttributes, if_pos proto, sanitiseAttributes, if_pos proto]
  · rw [sanitiseAttributes_of_ne proto, sanitiseAttributes_of_ne proto]
    cases attrs key with
    | none => rfl
    | some v => exact congrArg some (redactValueFor_idem key v)

theorem sanitised_of_named (named : attrs "__proto__" = none) :
    Sanitised attrs (sanitiseAttributes attrs) := by
  have copied : ∀ key v, attrs key = some v →
      sanitiseAttributes attrs key = some (redactValueFor key v) := by
    intro key v value
    have other : key ≠ "__proto__" := by
      rintro rfl
      rw [named] at value
      cases value
    rw [sanitiseAttributes_of_ne other, value]
    rfl
  constructor
  case keys =>
    intro key
    cases value : attrs key with
    | none => simp [sanitiseAttributes, value]
    | some v =>
      rw [copied key v value]
      rfl
  case personal =>
    intro key pii given
    obtain ⟨v, value⟩ := Option.isSome_iff_exists.mp given
    rw [copied key v value]
    simp [redactValueFor, pii]
  case urls =>
    intro key url urlLike value
    have other : isPiiKey key = false := by
      have apart : ∀ key ∈ URL_ATTRIBUTE_KEYS, isPiiKey key = false := by decide
      exact apart key (List.contains_iff_mem.mp urlLike)
    refine ⟨redactQueryString url, ?_, redactQueryString_redacted url⟩
    rw [copied key _ value]
    simp [redactValueFor, other, urlLike]
  case others =>
    intro key v other plain value
    rw [copied key v value]
    cases v with
    | str url => simp [redactValueFor, other, plain url rfl]
    | _ => simp [redactValueFor, other]

/-- No copy has this attribute, so a record that has it is not copied whole. -/
theorem named_of_sanitised (sanitised : Sanitised attrs (sanitiseAttributes attrs)) :
    attrs "__proto__" = none := by
  have kept := sanitised.keys "__proto__"
  rw [sanitiseAttributes, if_pos rfl] at kept
  exact Option.isNone_iff_eq_none.mp (by simpa using kept)

/-- The copy is sanitised, and its own sanitisation, just where no attribute has the one name that
is lost in the copy. -/
theorem sanitised_iff (attrs : Attributes) :
    Sanitised attrs (sanitiseAttributes attrs) ∧
        sanitiseAttributes (sanitiseAttributes attrs) = sanitiseAttributes attrs ↔
      attrs "__proto__" = none := by
  constructor
  · exact fun ⟨sanitised, _⟩ => named_of_sanitised sanitised
  · exact fun named => ⟨sanitised_of_named named, sanitiseAttributes_idem attrs⟩

theorem prototype_attribute_lost : ¬∀ attrs, Sanitised attrs (sanitiseAttributes attrs) ∧
    sanitiseAttributes (sanitiseAttributes attrs) = sanitiseAttributes attrs := by
  intro law
  obtain ⟨sanitised, -⟩ := law fun key => if key = "__proto__" then some (.str "x") else none
  cases named_of_sanitised sanitised

end Mikrouli.Tracing
