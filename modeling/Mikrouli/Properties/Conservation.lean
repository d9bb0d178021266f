import Mathlib.Algebra.BigOperators.Group.List.Lemmas
import Mikrouli.Properties.Clicks

/-! The statistics of a slug lose no click: the total and the sum of every breakdown are the
number of its rows. -/

namespace Mikrouli

open Async

variable {P : Platform} {i : Nat}

/-! ### What is recorded -/

/-- Every row is one `StatsService.record` writes. -/
def Ingested (clicks : List Click) : Prop :=
  ∀ c ∈ clicks, ∃ shortUrl ip ua, c.toStatRow = buildStatRow shortUrl ip ua

theorem firstMatch_lt {patterns : List (List String × Nat)} {other n : Nat}
    (ids : ∀ p ∈ patterns, p.2 < n) (otherwise : other < n) (ua : Option String) :
    firstMatch patterns other ua < n := by
  unfold firstMatch
  split
  · exact otherwise
  · exact otherwise
  · split
    next found => exact ids _ (List.mem_of_find?_eq_some found)
    · exact otherwise

theorem parseBrowserId_lt (ua : Option String) : parseBrowserId ua < 6 :=
  firstMatch_lt (by decide) (by decide) ua

variable {clicks : List Click}

theorem Ingested.browserId_lt (recorded : Ingested clicks) : ∀ c ∈ clicks, c.browserId < 6 := by
  intro c member
  obtain ⟨shortUrl, ip, ua, row⟩ := recorded c member
  rw [row]
  exact parseBrowserId_lt ua

theorem Ingested.countryId_eq (recorded : Ingested clicks) :
    ∀ c ∈ clicks, c.countryId = COUNTRY_UNKNOWN_ID := by
  intro c member
  obtain ⟨shortUrl, ip, ua, row⟩ := recorded c member
  rw [row]
  rfl

theorem Ingested.of_subset {clicks' : List Click} (recorded : Ingested clicks)
    (subset : clicks' ⊆ clicks) : Ingested clicks' :=
  fun c member => recorded c (subset member)

theorem clicksOf_subset (slug : String) (clicks : List Click) : clicksOf slug clicks ⊆ clicks :=
  List.filter_subset_self clicks

/-- The command inserts no row but one that `StatsService.record` makes. -/
def records : apiWithStats.Cmd → Prop
  | .inr (.insert row) => ∃ shortUrl ip ua, row = buildStatRow shortUrl ip ua
  | _ => True

/-- The API's other commands insert no click. -/
theorem lift_records {α : Type} (p : Prog α) : (p.lift : StatsProg α).Only records := by
  induction p with
  | done a => trivial
  | fail e => trivial
  | await c k ih => exact ⟨trivial, ih⟩

theorem serve_records (r : StatsReq) : (serveWithStats P r).Only records := by
  cases r with
  | api request => exact (lift_records _).bind fun _ => trivial
  | redirect slug ip ua =>
    refine Prog.Only.bind ?_ fun _ => trivial
    unfold RedirectController.redirect
    split
    · trivial
    · refine (lift_records _).bind fun resolution => Prog.Only.bind ?_ fun _ => trivial
      cases resolution with
      | active url =>
        refine Prog.Only.tryCatch (Prog.Only.perform ?_) fun _ => trivial
        -- the one insert there is, of the row that `record` builds
        exact ⟨slug, ip, ua, rfl⟩
      | expired | notFound => trivial
  | stats slug userId =>
    refine Prog.Only.bind ?_ fun _ => trivial
    refine (lift_records _).bind fun _ => Prog.Only.bind ?_ fun _ => trivial
    refine Prog.Only.bind (Prog.Only.perform trivial) fun total => ?_
    refine Prog.Only.bind (Prog.Only.perform trivial) fun byDay => ?_
    refine Prog.Only.bind (Prog.Only.perform trivial) fun countries => ?_
    exact Prog.Only.bind (Prog.Only.perform trivial) fun browsers => trivial

theorem Ingested.exec {c : apiWithStats.Cmd} {ch : Choice} {w w' : World × List Click}
    {res : Except AppError (apiWithStats.Res c)} (recorded : Ingested w.2) (ok : records c)
    (returned : ((machine P).extend clickHouse).exec i c ch w = some (res, w')) : Ingested w'.2 := by
  cases c with
  | inl c =>
    obtain ⟨⟨res', w₁⟩, -, same⟩ := Option.map_eq_some_iff.mp returned
    cases same
    exact recorded
  | inr c =>
    obtain ⟨⟨res', clicks⟩, asked, same⟩ := Option.map_eq_some_iff.mp returned
    cases same
    cases c with
    | insert row =>
      obtain ⟨shortUrl, ip, ua, made⟩ := ok
      simp only [clickHouse] at asked
      split at asked <;> cases asked
      -- a failed insert stores nothing
      · exact recorded
      · intro c member
        rcases List.mem_cons.mp member with rfl | old
        · exact ⟨shortUrl, ip, ua, made⟩
        · exact recorded c old
    | _ =>
      have kept := clickHouse_reads (by simp) asked
      exact kept ▸ recorded

/-- In every run of the API the rows are those it recorded. -/
theorem Ingested.session {now : Nat} {h : List (Served (mikrouliWithStats P))}
    {w : World × List Click} (session : Session (clickRuns P) (World.empty now, []) h w) :
    Ingested w.2 := by
  refine session.invariant (fun _ (w : World × List Click) => Ingested w.2) ?_ ?_ ?_
  · exact fun c member => by cases member
  · rintro h w _ recorded ⟨ms, rfl⟩
    exact recorded
  · intro h w r recorded _
    refine Always.of_only (serve_records r) ?_ ?_ recorded
    · rintro w w₀ recorded ⟨-, kept⟩
      rw [kept]
      exact recorded
    · exact fun c ch w res w' ok recorded _ returned => recorded.exec ok returned

/-! ### Grouping -/

/-- The clicks a breakdown accounts for. -/
def sumClicks {α : Type} (rows : List (α × Nat)) : Nat := (rows.map Prod.snd).sum

theorem sumClicks_perm {α : Type} {rows rows' : List (α × Nat)} (perm : rows.Perm rows') :
    sumClicks rows = sumClicks rows' := (perm.map Prod.snd).sum_nat

theorem sumClicks_groupCount (key : Click → Nat) (clicks : List Click) :
    sumClicks (groupCount key clicks) = clicks.length := by
  rw [sumClicks, groupCount, List.map_map]
  calc ((clicks.map key).dedup.map fun k => (clicks.map key).count k).sum
      = (clicks.map key).length := List.sum_map_count_dedup_eq_length _
    _ = clicks.length := List.length_map key

theorem length_groupCount_le {key : Click → Nat} {n : Nat} (bounded : ∀ c ∈ clicks, key c < n) :
    (groupCount key clicks).length ≤ n := by
  have keys : (clicks.map key).dedup ⊆ List.range n := by
    intro k member
    obtain ⟨c, inside, rfl⟩ := List.mem_map.mp (List.mem_dedup.mp member)
    exact List.mem_range.mpr (bounded c inside)
  -- distinct ids below `n` are at most `n`
  have distinct := ((List.nodup_dedup (clicks.map key)).subperm keys).length_le
  rw [List.length_range] at distinct
  rw [groupCount, List.length_map]
  exact distinct

/-- The limit cuts nothing off where the keys are few enough. -/
theorem sumClicks_topCount {key : Click → Nat} (bounded : ∀ c ∈ clicks, key c < TOP_LIMIT) :
    sumClicks (topCount key clicks) = clicks.length := by
  have sorted := List.mergeSort_perm (groupCount key clicks) fun a b => decide (b.2 ≤ a.2)
  have short := length_groupCount_le bounded
  rw [← sorted.length_eq] at short
  -- sorting loses no row, and the limit is no smaller than the number of ids
  rw [topCount, List.take_of_length_le short, sumClicks_perm sorted, sumClicks_groupCount]

theorem sumClicks_nameRows (names : List (Nat × String)) (rows : List (Nat × Nat)) :
    sumClicks (nameRows names rows) = sumClicks rows := by
  rw [sumClicks, sumClicks, nameRows, List.map_map]
  rfl

/-! ### Conversion -/

theorem toInt_toString {n : Nat} (small : n < 2 ^ 53) : toInt (toString n) = some n := by
  have text : (toString n).toList = Nat.toDigits 10 n := by
    rw [Nat.toString_eq_ofList_toDigits, String.toList_ofList]
  have digits : (Nat.toDigits 10 n).takeWhile Char.isDigit = Nat.toDigits 10 n :=
    List.takeWhile_eq_self_iff.mpr fun c digit =>
      Nat.isDigit_of_mem_toDigits (by decide) (by decide) digit
  simp only [toInt, text, digits, Nat.ofDigitChars_ten_toDigits]
  rw [if_neg]
  rintro (empty | large)
  -- a number has a digit, and a small one is not rounded
  · exact Nat.toDigits_ne_nil empty
  · omega

/-- The rows of a breakdown by day as texts. -/
def dayTexts (rows : List (Nat × Nat)) : List (Nat × String) :=
  rows.map fun (date, clicks) => (date, toString clicks)

/-- The rows of a breakdown by id as texts. -/
def idTexts (rows : List (Nat × Nat)) : List (String × String) :=
  rows.map fun (id, clicks) => (toString id, toString clicks)

theorem mapDayRows_dayTexts {rows : List (Nat × Nat)} (small : ∀ r ∈ rows, r.2 < 2 ^ 53) :
    mapDayRows (dayTexts rows) = some rows := by
  induction rows with
  | nil => rfl
  | cons row rows ih =>
    obtain ⟨first, rest⟩ := List.forall_mem_cons.mp small
    have later := ih rest
    simp only [mapDayRows, dayTexts] at later ⊢
    rw [List.map_cons, List.mapM_cons, later, toInt_toString first]
    rfl

theorem mapNamedRows_idTexts {names : List (Nat × String)} (rows : List (Nat × Nat))
    (small : ∀ r ∈ rows, r.1 < 2 ^ 53 ∧ r.2 < 2 ^ 53) :
    mapNamedRows names (idTexts rows) = some (nameRows names rows) := by
  induction rows with
  | nil => rfl
  | cons row rows ih =>
    obtain ⟨⟨id, count⟩, rest⟩ := List.forall_mem_cons.mp small
    have later := ih rest
    simp only [mapNamedRows, idTexts] at later ⊢
    rw [List.map_cons, List.mapM_cons, later, toInt_toString id, toInt_toString count]
    rfl

/-! ### The four queries -/

def dayRows (slug : String) (clicks : List Click) : List (Nat × Nat) :=
  (groupCount (fun c => c.timestamp / 86400000) (clicksOf slug clicks)).mergeSort
    fun a b => decide (a.1 ≤ b.1)

def countryRows (slug : String) (clicks : List Click) : List (Nat × Nat) :=
  topCount (fun c => c.countryId) (clicksOf slug clicks)

def browserRows (slug : String) (clicks : List Click) : List (Nat × Nat) :=
  topCount (fun c => c.browserId) (clicksOf slug clicks)

/-- The total is the number of the slug's rows, and so is the sum of every breakdown. -/
structure Conserves (slug : String) (clicks : List Click) (stats : AggregatedStats) : Prop where
  total : stats.totalClicks = (clicksOf slug clicks).length
  byDay : sumClicks stats.clicksByDay = stats.totalClicks
  byCountry : sumClicks stats.topCountries = stats.totalClicks
  byBrowser : sumClicks stats.topBrowsers = stats.totalClicks

/-- What `getStats` makes of the numbers in the four answers. -/
def snapshotStats (slug : String) (clicks : List Click) : AggregatedStats :=
  assembleStats [(clicksOf slug clicks).length] (dayRows slug clicks) (countryRows slug clicks)
    (browserRows slug clicks)

theorem snapshotStats_conserves {slug : String} (recorded : Ingested clicks) :
    Conserves slug clicks (snapshotStats slug clicks) := by
  have own := recorded.of_subset (clicksOf_subset slug clicks)
  have countries : ∀ c ∈ clicksOf slug clicks, c.countryId < TOP_LIMIT := by
    intro c member
    rw [own.countryId_eq c member]
    decide
  have browsers : ∀ c ∈ clicksOf slug clicks, c.browserId < TOP_LIMIT :=
    fun c member => Nat.lt_trans (own.browserId_lt c member) (by decide)
  constructor
  · rfl
  -- days are not limited, countries and browsers are
  · exact (sumClicks_perm (List.mergeSort_perm _ _)).trans (sumClicks_groupCount _ _)
  · exact (sumClicks_nameRows _ _).trans (sumClicks_topCount countries)
  · exact (sumClicks_nameRows _ _).trans (sumClicks_topCount browsers)

theorem groupCount_small {key : Click → Nat} {n : Nat} (few : clicks.length < n) :
    ∀ r ∈ groupCount key clicks, r.2 < n := by
  intro r member
  obtain ⟨k, -, rfl⟩ := List.mem_map.mp member
  have bound := List.count_le_length (a := k) (l := clicks.map key)
  rw [List.length_map] at bound
  exact Nat.lt_of_le_of_lt bound few

theorem topCount_small {key : Click → Nat} {n : Nat} (few : clicks.length < n)
    (bounded : ∀ c ∈ clicks, key c < n) : ∀ r ∈ topCount key clicks, r.1 < n ∧ r.2 < n := by
  intro r member
  have grouped := List.mem_mergeSort.mp (List.mem_of_mem_take member)
  refine ⟨?_, groupCount_small few r grouped⟩
  obtain ⟨k, key, rfl⟩ := List.mem_map.mp grouped
  obtain ⟨c, inside, rfl⟩ := List.mem_map.mp (List.mem_dedup.mp key)
  exact bounded c inside

/-- Reading the numbers from the texts loses none of them. -/
theorem assembleRows_texts {slug : String} (recorded : Ingested clicks)
    (few : clicks.length < 2 ^ 53) :
    assembleRows [toString (clicksOf slug clicks).length] (dayTexts (dayRows slug clicks))
        (idTexts (countryRows slug clicks)) (idTexts (browserRows slug clicks)) =
      some (snapshotStats slug clicks) := by
  have own := recorded.of_subset (clicksOf_subset slug clicks)
  have fewOwn : (clicksOf slug clicks).length < 2 ^ 53 :=
    Nat.lt_of_le_of_lt (List.length_filter_le _ _) few
  -- counts are at most the number of clicks, and ids are smaller still
  have days : ∀ r ∈ dayRows slug clicks, r.2 < 2 ^ 53 :=
    fun r member => groupCount_small fewOwn r (List.mem_mergeSort.mp member)
  have countries : ∀ c ∈ clicksOf slug clicks, c.countryId < 2 ^ 53 := by
    intro c member
    rw [own.countryId_eq c member]
    decide
  have browsers : ∀ c ∈ clicksOf slug clicks, c.browserId < 2 ^ 53 :=
    fun c member => Nat.lt_trans (own.browserId_lt c member) (by decide)
  have total : toInt ([toString (clicksOf slug clicks).length].headD "0") =
      some (clicksOf slug clicks).length := toInt_toString fewOwn
  rw [assembleRows, total, mapDayRows_dayTexts days,
    mapNamedRows_idTexts (countryRows slug clicks) (topCount_small fewOwn countries),
    mapNamedRows_idTexts (browserRows slug clicks) (topCount_small fewOwn browsers)]
  rfl

/-! ### Runs -/

/-- A query that ClickHouse answers, over the rows that are there. -/
theorem ask_answered {c : ClickHouseCmd} {a : c.Res} {w : World × List Click}
    {Q : Except AppError c.Res → World × List Click → Prop}
    (answer : ∀ ch : Choice, ch.fault = none → ∀ w₀,
      clickHouse c ch w₀ w.2 = some (.ok a, w.2))
    (post : ∀ w₀, Q (.ok a) (w₀, w.2)) :
    Always ((machine P).extend clickHouse) (clickRuns P).toSetting i Q (awaitClickHouse c) w := by
  apply Always.ask
  intro w₀ _ ch res clicks works returned
  rw [answer ch works w₀] at returned
  cases returned
  exact post w₀

theorem getStats_eq {slug : String} {w : World × List Click} :
    Always ((machine P).extend clickHouse) (clickRuns P).toSetting i
      (fun r w' => r = .ok (snapshotStats slug w.2) ∧ w'.2 = w.2) (StatsService.getStats slug) w := by
  apply Always.bind
  refine ask_answered (a := [(clicksOf slug w.2).length]) ?_ fun w₁ => ?_
  · intro ch works w₀
    simp [clickHouse, works]
  apply Always.bind
  refine ask_answered (a := dayRows slug w.2) ?_ fun w₂ => ?_
  · intro ch works w₀
    simp [clickHouse, works, dayRows]
  apply Always.bind
  refine ask_answered (a := countryRows slug w.2) ?_ fun w₃ => ?_
  · intro ch works w₀
    simp [clickHouse, works, countryRows]
  apply Always.bind
  refine ask_answered (a := browserRows slug w.2) ?_ fun w₄ => ⟨rfl, rfl⟩
  intro ch works w₀
  simp [clickHouse, works, browserRows]

/-- Over the rows recorded so far, every breakdown of the statistics adds up to their number. -/
theorem getStats_conserves {slug : String} {w w' : World × List Click}
    {r : Except AppError AggregatedStats} (recorded : Ingested w.2) (few : w.2.length < 2 ^ 53)
    (shown : Runs ((machine P).extend clickHouse) (clickRuns P).toSetting i
      (StatsService.getStats slug) w r w') :
    ∃ stats, r = .ok stats ∧ Conserves slug w.2 stats ∧
      assembleRows [toString (clicksOf slug w.2).length] (dayTexts (dayRows slug w.2))
        (idTexts (countryRows slug w.2)) (idTexts (browserRows slug w.2)) = some stats := by
  obtain ⟨answered, -⟩ := getStats_eq.runs shown
  exact ⟨_, answered, snapshotStats_conserves recorded, assembleRows_texts recorded few⟩

/-- Three clicks, on two days and with two browsers, beside one on another slug. -/
def someClicks : List Click :=
  [⟨buildStatRow "abcdef" none (some "Mozilla/5.0 Chrome/120.0 Safari/537.36"), 86400000⟩,
   ⟨buildStatRow "abcdef" (some "10.0.0.1") (some "curl/8.5"), 86399999⟩,
   ⟨buildStatRow "bcdefg" none none, 5000⟩,
   ⟨buildStatRow "abcdef" none (some "Mozilla/5.0 Chrome/119.0 Safari/537.36"), 5000⟩]

theorem ingested_someClicks : Ingested someClicks := by
  simp only [Ingested, someClicks, List.forall_mem_cons]
  exact ⟨⟨_, _, _, rfl⟩, ⟨_, _, _, rfl⟩, ⟨_, _, _, rfl⟩, ⟨_, _, _, rfl⟩, by simp⟩

theorem getStats_conserves_someClicks :
    ∃ stats, Conserves "abcdef" someClicks stats ∧ stats.totalClicks = 3 := by
  have replayed : replay ((machine Platform.plain).extend clickHouse) 0
      (StatsService.getStats "abcdef") [{}, {}, {}, {}] (World.empty 90000000, someClicks) =
        some (.ok (snapshotStats "abcdef" someClicks), (World.empty 90000000, someClicks)) := rfl
  have works : ∀ ch ∈ List.replicate 4 ({} : Choice), ch.fault = none := by simp
  have shown := runs_of_replay clickRuns_still (fun ch member => allow_of_works (works ch member)) replayed
  obtain ⟨stats, answer, conserves, -⟩ := getStats_conserves ingested_someClicks (by decide) shown
  cases answer
  exact ⟨_, conserves, by decide⟩

end Mikrouli
