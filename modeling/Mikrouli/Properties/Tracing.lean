import Mikrouli.Model.Instrumentation

/-! What of a request reaches the trace exporter.

The sanitiser is applied to the attributes the hooks set, the empty header values, and to nothing
else. Whatever the HTTP instrumentation sets itself is exported the way it was set, before the hooks
or after them; only the sensitive headers it has set before are overwritten. -/

namespace Mikrouli.Tracing

open FormUrlencoded

/-! ### Fixed points of the sanitiser -/

/-- A query string that is left alone: not empty, written the way it is serialized, and every
credential in it occurs once and is redacted. -/
structure CleanQuery (qs : String) : Prop where
  filled : qs ≠ ""
  serialized : FormUrlencoded.toString (ofString qs) = qs
  redacted : ∀ name ∈ PII_QUERY_PARAMS, Blanked REDACTED_VALUE (ofString qs) name

def CleanUrl (url : String) : Prop := '?' ∈ url.toList → CleanQuery (query url)

theorem redactSearchParams_eq_self {params : Params} : redactSearchParams params = params ↔
    ∀ name ∈ PII_QUERY_PARAMS, Blanked REDACTED_VALUE params name :=
  foldl_blank_eq_self

theorem eq_takeWhile_cons_drop {α : Type} [DecidableEq α] {l : List α} {a : α} (member : a ∈ l) :
    l = l.takeWhile (· ≠ a) ++ a :: (l.dropWhile (· ≠ a)).drop 1 := by
  induction l with
  | nil => cases member
  | cons b l ih =>
    by_cases same : b = a
    · simp [same]
    · have later : a ∈ l := (List.mem_cons.mp member).resolve_left (Ne.symm same)
      simpa [same] using ih later

/-- The base, the question mark and the query make up the url. -/
theorem eq_base_query {url : String} (mark : '?' ∈ url.toList) :
    url = base url ++ "?" ++ query url := by
  apply String.toList_inj.mp
  have parts := eq_takeWhile_cons_drop mark
  simpa [base, query] using parts

theorem base_ne {url : String} (mark : '?' ∈ url.toList) : base url ≠ url := by
  intro same
  rw [← same, base, String.toList_ofList] at mark
  have other := List.mem_takeWhile_imp mark
  simp at other

theorem redactQueryString_eq_self {url : String} : redactQueryString url = url ↔ CleanUrl url := by
  unfold redactQueryString CleanUrl
  by_cases mark : '?' ∈ url.toList
  · rw [if_pos mark]
    dsimp only
    constructor
    · intro same _
      split at same
      · exact absurd same (base_ne mark)
      next filled =>
        have qs : FormUrlencoded.toString (redactSearchParams (ofString (query url))) = query url :=
          String.append_right_inj _ |>.mp (same.trans (eq_base_query mark))
        -- what was serialized is read back, so redacting has changed nothing
        have params : redactSearchParams (ofString (query url)) = ofString (query url) := by
          rw [← ofString_toString (redactSearchParams _), qs]
        constructor
        case filled => simpa [qs] using filled
        case serialized => rw [← params, qs]
        case redacted => exact redactSearchParams_eq_self.mp params
    · intro clean
      obtain ⟨filled, serialized, redacted⟩ := clean mark
      rw [redactSearchParams_eq_self.mpr redacted, serialized, if_neg (by simpa using filled)]
      exact (eq_base_query mark).symm
  · simp [mark]

example : redactQueryString "/login?email=a@b.com&keep=a%20b" =
    "/login?email=%5BREDACTED%5D&keep=a+b" := by
  decide +kernel

theorem sanitiseAttributes_of_ne {attrs : Attributes} {key : String} (named : key ≠ "__proto__") :
    sanitiseAttributes attrs key = (attrs key).map (redactValueFor key) := if_neg named

/-- A record is its own sanitisation if its identifiers are redacted, its urls are clean and it has
no key that a plain object cannot have. -/
theorem sanitiseAttributes_eq_self {attrs : Attributes} : sanitiseAttributes attrs = attrs ↔
    (∀ key v, isPiiKey key = true → attrs key = some v → v = .str REDACTED_VALUE) ∧
      (∀ key url, isPiiKey key = false → isUrlLikeKey key = true → attrs key = some (.str url) →
        CleanUrl url) ∧ attrs "__proto__" = none := by
  constructor
  · intro same
    have prototype : attrs "__proto__" = none := by
      rw [← same]
      exact if_pos rfl
    have fixed : ∀ key v, attrs key = some v → redactValueFor key v = v := by
      intro key v value
      have named : key ≠ "__proto__" := by
        rintro rfl
        rw [prototype] at value
        cases value
      have here := congrFun same key
      rw [sanitiseAttributes_of_ne named, value] at here
      exact Option.some.inj here
    refine ⟨fun key v pii value => ?_, fun key url other urlLike value => ?_, prototype⟩
    · have redacted := fixed key v value
      unfold redactValueFor at redacted
      rw [if_pos pii] at redacted
      exact redacted.symm
    · have redacted := fixed key _ value
      unfold redactValueFor at redacted
      rw [if_neg (by simp [other])] at redacted
      simp only [urlLike, if_true, Json.str.injEq] at redacted
      exact redactQueryString_eq_self.mp redacted
  · rintro ⟨identifiers, urls, prototype⟩
    funext key
    cases value : attrs key with
    | none => simp [sanitiseAttributes, value]
    | some v =>
      have named : key ≠ "__proto__" := by
        rintro rfl
        rw [prototype] at value
        cases value
      rw [sanitiseAttributes_of_ne named, value, Option.map_some]
      unfold redactValueFor
      split
      next pii => rw [identifiers key v pii value]
      next other =>
        cases v with
        | str url =>
          dsimp only
          split
          next urlLike =>
            rw [redactQueryString_eq_self.mpr (urls key url (by simpa using other) urlLike value)]
          · rfl
        | _ => rfl

/-! ### What the hooks overwrite -/

section Hooks

variable {http : HttpInstrumentation} {request : IncomingMessage} {span map : Attributes}
  {key direction : String}

theorem isPiiKey_of_headerKeys (known : direction ∈ SENSITIVE_HEADER_PREFIXES)
    (member : key ∈ headerKeys direction) : isPiiKey key = true := by
  rw [isPiiKey, List.contains_iff_mem]
  exact List.mem_append_right _ (List.mem_flatMap.mpr ⟨direction, known, member⟩)

/-- The headers of a direction are blanked, and nothing else. -/
theorem applyAttributeMap_blank (known : direction ∈ SENSITIVE_HEADER_PREFIXES) :
    applyAttributeMap (blankAttributesForPrefix direction) span key =
      if key ∈ headerKeys direction then some (.str REDACTED_VALUE) else span key := by
  unfold applyAttributeMap setAttributes
  by_cases member : key ∈ headerKeys direction
  · have pii := isPiiKey_of_headerKeys known member
    have named : key ≠ "__proto__" := by
      rintro rfl
      revert pii
      decide
    rw [sanitiseAttributes_of_ne named]
    simp [blankAttributesForPrefix, member, redactValueFor, pii]
  · simp [sanitiseAttributes, blankAttributesForPrefix, member]

theorem responseHook_apply : responseHook span key =
    if key ∈ headerKeys "http.response.header." then some (.str REDACTED_VALUE) else span key :=
  applyAttributeMap_blank (by decide)

theorem requestHook_apply (other : key ≠ "app.correlation_id") : requestHook request span key =
    if key ∈ headerKeys "http.request.header." then some (.str REDACTED_VALUE) else span key := by
  have headers : redactRequestHeaders span key =
      if key ∈ headerKeys "http.request.header." then some (.str REDACTED_VALUE) else span key :=
    applyAttributeMap_blank (by decide)
  rw [← headers]
  unfold requestHook
  cases request.headers "x-correlation-id" with
  | none => rfl
  | some correlationId =>
    by_cases empty : correlationId = ""
    · simp [empty]
    · simp [empty, setAttribute, setAttributes, other]

/-- What the instrumentation itself has given a key at last. -/
def HttpInstrumentation.last (http : HttpInstrumentation) (key : String) : Option Json :=
  (http.atEnd key).or ((http.between key).or (http.atStart key))

theorem exported_of_not_header (request' : key ∉ headerKeys "http.request.header.")
    (response : key ∉ headerKeys "http.response.header.") (other : key ≠ "app.correlation_id") :
    exported http request key = http.last key := by
  simp [exported, setAttributes, responseHook_apply, requestHook_apply other, request', response,
    HttpInstrumentation.last]

theorem exported_request_header (member : key ∈ headerKeys "http.request.header.") :
    exported http request key =
      ((http.atEnd key).or (http.between key)).or (some (.str REDACTED_VALUE)) := by
  have facts : ∀ key ∈ headerKeys "http.request.header.",
      key ≠ "app.correlation_id" ∧ key ∉ headerKeys "http.response.header." := by decide
  obtain ⟨other, response⟩ := facts key member
  simp [exported, setAttributes, responseHook_apply, requestHook_apply other, member, response]

theorem exported_response_header (member : key ∈ headerKeys "http.response.header.") :
    exported http request key = (http.atEnd key).or (some (.str REDACTED_VALUE)) := by
  simp [exported, setAttributes, responseHook_apply, member]

end Hooks

/-! ### What is exported -/

/-- What the instrumentation itself must not put on a span: an identifier of the client's network,
a sensitive header once the hook for it has run, and a credential in a query string. Nor may it use
the one key that the sanitiser loses. -/
structure HttpInstrumentation.Harmless (http : HttpInstrumentation) : Prop where
  network : ∀ key ∈ SENSITIVE_NETWORK_KEYS, ∀ v, http.last key = some v → v = .str REDACTED_VALUE
  request : ∀ key ∈ headerKeys "http.request.header.", ∀ v,
    (http.atEnd key).or (http.between key) = some v → v = .str REDACTED_VALUE
  response : ∀ key ∈ headerKeys "http.response.header.", ∀ v,
    http.atEnd key = some v → v = .str REDACTED_VALUE
  urls : ∀ key ∈ URL_ATTRIBUTE_KEYS, ∀ url, http.last key = some (.str url) → CleanUrl url
  prototype : http.last "__proto__" = none

theorem plain_of_mem {key : String} (member : key ∈ SENSITIVE_NETWORK_KEYS ++ URL_ATTRIBUTE_KEYS) :
    key ∉ headerKeys "http.request.header." ∧ key ∉ headerKeys "http.response.header." ∧
      key ≠ "app.correlation_id" := by
  have facts : ∀ key ∈ SENSITIVE_NETWORK_KEYS ++ URL_ATTRIBUTE_KEYS,
      key ∉ headerKeys "http.request.header." ∧ key ∉ headerKeys "http.response.header." ∧
        key ≠ "app.correlation_id" := by decide
  exact facts key member

theorem eq_of_or_redacted {o : Option Json} {v : Json}
    (kept : ∀ v, o = some v → v = .str REDACTED_VALUE)
    (value : o.or (some (.str REDACTED_VALUE)) = some v) : v = .str REDACTED_VALUE := by
  cases o with
  | none => exact (Option.some.inj value).symm
  | some w => exact kept v value

/-- The hooks do not sanitise a span: its attributes are their own sanitisation only if the
instrumentation has set nothing to sanitise after them, or that they do not overwrite. -/
theorem exported_sanitised_iff (http : HttpInstrumentation) (request : IncomingMessage) :
    sanitiseAttributes (exported http request) = exported http request ↔ http.Harmless := by
  have proto : exported http request "__proto__" = http.last "__proto__" :=
    exported_of_not_header (by decide) (by decide) (by decide)
  rw [sanitiseAttributes_eq_self, proto]
  constructor
  · rintro ⟨identifiers, urls, prototype⟩
    constructor
    case prototype => exact prototype
    case network =>
      intro key member v value
      obtain ⟨request', response, other⟩ := plain_of_mem (List.mem_append_left _ member)
      -- no hook touches these keys: what is exported is what was last set
      refine identifiers key v ?_ ((exported_of_not_header request' response other).trans value)
      rw [isPiiKey, List.contains_iff_mem]
      exact List.mem_append_left _ member
    case request =>
      intro key member v value
      refine identifiers key v (isPiiKey_of_headerKeys (by decide) member) ?_
      rw [exported_request_header member, value]
      rfl
    case response =>
      intro key member v value
      refine identifiers key v (isPiiKey_of_headerKeys (by decide) member) ?_
      rw [exported_response_header member, value]
      rfl
    case urls =>
      intro key member url value
      obtain ⟨request', response, other⟩ := plain_of_mem (List.mem_append_right _ member)
      -- the url rule applies only to keys that are not redacted whole
      have apart : ∀ key ∈ URL_ATTRIBUTE_KEYS, isPiiKey key = false := by decide
      refine urls key url (apart key member) (List.contains_iff_mem.mpr member) ?_
      rw [exported_of_not_header request' response other, value]
  · intro harmless
    refine ⟨?_, ?_, harmless.prototype⟩
    · intro key v pii value
      rw [isPiiKey, List.contains_iff_mem, List.mem_append] at pii
      -- a redacted key is one of the network or a sensitive header of one direction
      rcases pii with network | header
      · obtain ⟨request', response, other⟩ := plain_of_mem (List.mem_append_left _ network)
        rw [exported_of_not_header request' response other] at value
        exact harmless.network key network v value
      · obtain ⟨direction, known, member⟩ := List.mem_flatMap.mp header
        rcases List.mem_pair.mp known with rfl | rfl
        · rw [exported_request_header member] at value
          exact eq_of_or_redacted (harmless.request key member) value
        · rw [exported_response_header member] at value
          exact eq_of_or_redacted (harmless.response key member) value
    · intro key url _ urlLike value
      have member : key ∈ URL_ATTRIBUTE_KEYS := List.contains_iff_mem.mp urlLike
      obtain ⟨request', response, other⟩ := plain_of_mem (List.mem_append_right _ member)
      rw [exported_of_not_header request' response other] at value
      exact harmless.urls key member url value

/-- A request from 203.0.113.7: its address is set when the response has been sent. -/
def plainRequest : HttpInstrumentation where
  atStart key :=
    if key = "http.method" then some (.str "GET")
    else if key = "http.target" then some (.str "/api/urls")
    else none
  between _ := none
  atEnd key := if key = "net.peer.ip" then some (.str "203.0.113.7") else none

/-- Its address reaches the exporter. -/
theorem client_ip_exported : ¬∀ (http : HttpInstrumentation) (request : IncomingMessage),
    sanitiseAttributes (exported http request) = exported http request := by
  intro law
  have identifiers := (sanitiseAttributes_eq_self.mp (law plainRequest ⟨fun _ => none⟩)).1
  have value : exported plainRequest ⟨fun _ => none⟩ "net.peer.ip" = some (.str "203.0.113.7") :=
    exported_of_not_header (by decide) (by decide) (by decide)
  have redacted := Json.str.inj (identifiers "net.peer.ip" _ (by decide) value)
  revert redacted
  decide

end Mikrouli.Tracing
