import Mikrouli.Lib.Extend
import Mikrouli.Model.Api

/-! `stats/*.ts`, `clickhouse/clickhouse.service.ts` and `redirect/redirect.controller.ts`: clicks,
and the API with ClickHouse beside its other stores. -/

namespace Mikrouli

open Async

/-! ### User agents -/

/-- `/part/i.test(ua)` for a pattern of lower-case letters and signs. -/
def matchesIgnoringCase (part ua : String) : Bool :=
  (ua.toList.map Char.toLower).tails.any fun rest => part.toList.isPrefixOf rest

/-- The id of the first pattern that occurs. -/
def firstMatch (patterns : List (List String × Nat)) (other : Nat) (ua : Option String) : Nat :=
  match ua with
  | none | some "" => other
  | some ua =>
    match patterns.find? fun (parts, _) => parts.any fun part => matchesIgnoringCase part ua with
    | some (_, id) => id
    | none => other

def OS_OTHER_ID : Nat := 0
def BROWSER_OTHER_ID : Nat := 0

def parseOsId : Option String → Nat :=
  firstMatch [(["windows nt"], 1), (["android"], 5), (["iphone", "ipad", "ipod"], 4),
    (["macintosh", "mac os x"], 2), (["linux"], 3)] OS_OTHER_ID

def parseBrowserId : Option String → Nat :=
  firstMatch [(["edg/", "edge/"], 4), (["opr/", "opera"], 5), (["firefox"], 2), (["chrome"], 1),
    (["safari"], 3)] BROWSER_OTHER_ID

def BROWSER_NAMES : List (Nat × String) :=
  [(0, "Unknown"), (1, "Chrome"), (2, "Firefox"), (3, "Safari"), (4, "Edge"), (5, "Opera")]

def COUNTRY_NAMES : List (Nat × String) := [(0, "Unknown")]

/-! ### ClickHouse -/

def TOP_LIMIT : Nat := 10
def COUNTRY_UNKNOWN_ID : Nat := 0
def CITY_UNKNOWN_ID : Nat := 0

/-- What is inserted into `stats_buffer`. -/
structure StatRow where
  shortUrl : String
  ip : String
  countryId : Nat
  cityId : Nat
  osId : Nat
  browserId : Nat
  deriving DecidableEq, Repr

/-- A stored row, with the timestamp it gets by default. -/
structure Click extends StatRow where
  timestamp : Nat
  deriving DecidableEq, Repr

inductive ClickHouseCmd where
  | insert (row : StatRow)
  | total (slug : String)
  | byDay (slug : String)
  | topCountries (slug : String)
  | topBrowsers (slug : String)

/-- `count()` is a decimal text, from which `toInt` reads the number; a day is counted from
1970-01-01. -/
abbrev ClickHouseCmd.Res : ClickHouseCmd → Type
  | .insert _ => Unit
  | .total _ => List Nat
  | .byDay _ | .topCountries _ | .topBrowsers _ => List (Nat × Nat)

/-- `WHERE short_url = slug`: a `String` column compares exactly. -/
def clicksOf (slug : String) (clicks : List Click) : List Click :=
  clicks.filter fun c => decide (c.shortUrl = slug)

/-- `SELECT key, count() GROUP BY key` -/
def groupCount (key : Click → Nat) (clicks : List Click) : List (Nat × Nat) :=
  (clicks.map key).dedup.map fun k => (k, (clicks.map key).count k)

/-- `ORDER BY clicks DESC LIMIT 10` -/
def topCount (key : Click → Nat) (clicks : List Click) : List (Nat × Nat) :=
  ((groupCount key clicks).mergeSort fun a b => decide (b.2 ≤ a.2)).take TOP_LIMIT

/-- A fault of the choice makes the command fail. -/
def clickHouse (c : ClickHouseCmd) (ch : Choice) (w : World) (clicks : List Click) :
    Option (Except AppError c.Res × List Click) :=
  -- a failing insert stores nothing
  if ch.fault.isSome then some (.error .queryFailed, clicks)
  else match c with
    | .insert row => some (.ok (), ⟨row, w.now⟩ :: clicks)
    | .total slug => some (.ok [(clicksOf slug clicks).length], clicks)
    | .byDay slug =>
      some (.ok ((groupCount (fun c => c.timestamp / 86400000) (clicksOf slug clicks)).mergeSort
        fun a b => decide (a.1 ≤ b.1)), clicks)
    | .topCountries slug => some (.ok (topCount (fun c => c.countryId) (clicksOf slug clicks)), clicks)
    | .topBrowsers slug => some (.ok (topCount (fun c => c.browserId) (clicksOf slug clicks)), clicks)

/-- The API's commands and those of ClickHouse. -/
abbrev apiWithStats : Signature := api.extend ClickHouseCmd ClickHouseCmd.Res

abbrev StatsProg (α : Type) := Async.Prog apiWithStats α

abbrev awaitClickHouse (c : ClickHouseCmd) : StatsProg c.Res :=
  Prog.perform (S := apiWithStats) (.inr c)

/-! ### Statistics -/

structure AggregatedStats where
  totalClicks : Nat
  clicksByDay : List (Nat × Nat)
  topCountries : List (String × Nat)
  topBrowsers : List (String × Nat)
  deriving DecidableEq, Repr

def buildStatRow (shortUrl : String) (ip ua : Option String) : StatRow where
  shortUrl := shortUrl
  ip := ip.getD ""
  countryId := COUNTRY_UNKNOWN_ID
  cityId := CITY_UNKNOWN_ID
  osId := parseOsId ua
  browserId := parseBrowserId ua

def nameRows (names : List (Nat × String)) (rows : List (Nat × Nat)) : List (String × Nat) :=
  rows.map fun (id, clicks) => ((names.lookup id).getD "Unknown", clicks)

def assembleStats (total : List Nat) (byDay countries browsers : List (Nat × Nat)) :
    AggregatedStats where
  totalClicks := total.headD 0
  clicksByDay := byDay
  topCountries := nameRows COUNTRY_NAMES countries
  topBrowsers := nameRows BROWSER_NAMES browsers

/-! ### Rows as they arrive

Every number comes as a decimal text, but for the ids, which are numbers that `parseInt` turns
into one; a day is its number here too. -/

/-- `parseInt(value, 10)` of a text without sign or blanks: none for `NaN`, and for a number that
a double does not hold exactly. -/
def toInt (value : String) : Option Nat :=
  let digits := value.toList.takeWhile Char.isDigit
  let parsed := Nat.ofDigitChars 10 digits 0
  if digits = [] ∨ 2 ^ 53 ≤ parsed then none else some parsed

def mapDayRows (rows : List (Nat × String)) : Option (List (Nat × Nat)) :=
  rows.mapM fun (date, clicks) => (toInt clicks).map fun n => (date, n)

/-- `mapCountryRows` and `mapBrowserRows`. -/
def mapNamedRows (names : List (Nat × String)) (rows : List (String × String)) :
    Option (List (String × Nat)) :=
  rows.mapM fun (id, clicks) =>
    (toInt clicks).map fun n => (((toInt id).bind fun id => names.lookup id).getD "Unknown", n)

def assembleRows (total : List String) (byDay : List (Nat × String))
    (countries browsers : List (String × String)) : Option AggregatedStats := do
  let totalClicks ← toInt (total.headD "0")
  let clicksByDay ← mapDayRows byDay
  let topCountries ← mapNamedRows COUNTRY_NAMES countries
  let topBrowsers ← mapNamedRows BROWSER_NAMES browsers
  pure ⟨totalClicks, clicksByDay, topCountries, topBrowsers⟩

namespace StatsService

/-- A failed insert is logged and forgotten. -/
def record (shortUrl : String) (ip userAgent : Option String) : StatsProg Unit :=
  (awaitClickHouse (.insert (buildStatRow shortUrl ip userAgent))).tryCatch fun _ => pure ()

/-- `Promise.all` starts the four queries at once; none of them writes. -/
def getStats (shortUrl : String) : StatsProg AggregatedStats := do
  let total ← awaitClickHouse (.total shortUrl)
  let byDay ← awaitClickHouse (.byDay shortUrl)
  let countries ← awaitClickHouse (.topCountries shortUrl)
  let browsers ← awaitClickHouse (.topBrowsers shortUrl)
  pure (assembleStats total byDay countries browsers)

end StatsService

structure StatsResponse where
  slug : String
  totalClicks : Nat
  byDay : List (Nat × Nat)
  byCountry : List (String × Nat)
  byBrowser : List (String × Nat)
  deriving DecidableEq, Repr

def toStatsResponse (slug : String) (stats : AggregatedStats) : StatsResponse :=
  ⟨slug, stats.totalClicks, stats.clicksByDay, stats.topCountries, stats.topBrowsers⟩

def verifyLinkOwnership (slug userId : String) : Prog Unit := do
  match ← LinksService.findBySlug slug with
  | none => throw (AppError.notFound ("Link " ++ slug ++ " not found"))
  | some link => if link.userId ≠ userId then throw AppError.forbidden else pure ()

def StatsController.getStats (slug userId : String) : StatsProg StatsResponse := do
  (verifyLinkOwnership slug userId).lift
  let stats ← StatsService.getStats slug
  pure (toStatsResponse slug stats)

/-! ### Redirects -/

inductive RedirectOutcome where
  /-- 302 to the location -/
  | found (location : String)
  | gone (message : String)
  | notFound (message : String)
  deriving DecidableEq, Repr

def applyRedirect : RedirectResolution → RedirectOutcome
  -- an empty location is falsy, and the handler then answers as if there were none
  | .active originalUrl => if originalUrl = "" then .notFound "unknown slug" else .found originalUrl
  | .expired => .gone "link expired"
  | .notFound => .notFound "unknown slug"

namespace RedirectController

variable (P : Platform)

def recordStatsIfActive (resolution : RedirectResolution) (slug : String)
    (ip userAgent : Option String) : StatsProg Unit :=
  match resolution with
  | .active _ => StatsService.record slug ip userAgent
  | .expired | .notFound => pure ()

/-- The handler does not wait for the click to be stored; here it is stored before the next
request. -/
def redirect (slug : String) (ip userAgent : Option String) : StatsProg RedirectOutcome :=
  if (codeUnits slug).length ≠ SLUG_LENGTH then pure (.notFound ("unknown slug " ++ slug))
  else do
    let resolution ← (RedirectService.resolve P slug).lift
    -- stored under the path parameter, which is six units long here
    recordStatsIfActive resolution slug ip userAgent
    pure (applyRedirect resolution)

end RedirectController

/-! ### Service -/

inductive StatsReq where
  | api (request : Req)
  | redirect (slug : String) (ip userAgent : Option String)
  | stats (slug userId : String)
  deriving DecidableEq, Repr

inductive StatsAns where
  | api (answer : Ans)
  | redirect (outcome : RedirectOutcome)
  | stats (response : StatsResponse)
  deriving DecidableEq, Repr

variable (P : Platform)

def serveWithStats : StatsReq → StatsProg StatsAns
  | .api request => StatsAns.api <$> (serve P request).lift
  | .redirect slug ip userAgent =>
    StatsAns.redirect <$> RedirectController.redirect P slug ip userAgent
  | .stats slug userId => StatsAns.stats <$> StatsController.getStats slug userId

abbrev mikrouliWithStats : Service apiWithStats where
  toMachine := (machine P).extend clickHouse
  Req := StatsReq
  Ans := StatsAns
  prog := serveWithStats P
  Env := Nat
  tick ms w := (w.1.advance ms, w.2)

end Mikrouli
