import Mathlib.Logic.Function.Basic
import Mikrouli.Lib.History

/-! The start of `clickhouse/clickhouse.service.ts`, which every pod of the API runs: the tables of
the statistics, and the dictionaries that are seeded where they are empty. -/

namespace Mikrouli.StatsSchema

open Async

structure DictionaryRow where
  id : Nat
  name : String
  deriving DecidableEq, Repr

structure Dictionary where
  table : String
  rows : List DictionaryRow
  deriving DecidableEq, Repr

/-- The table that each statement creates where there is none. -/
def STATS_DDL : List String := ["countries", "cities", "os", "browsers", "stats", "stats_buffer"]

def OS_SEED : List DictionaryRow :=
  [⟨0, "Other"⟩, ⟨1, "Windows"⟩, ⟨2, "macOS"⟩, ⟨3, "Linux"⟩, ⟨4, "iOS"⟩, ⟨5, "Android"⟩]

def BROWSER_SEED : List DictionaryRow :=
  [⟨0, "Other"⟩, ⟨1, "Chrome"⟩, ⟨2, "Firefox"⟩, ⟨3, "Safari"⟩, ⟨4, "Edge"⟩, ⟨5, "Opera"⟩]

def COUNTRY_SEED : List DictionaryRow := [⟨0, "Unknown"⟩]
def CITY_SEED : List DictionaryRow := [⟨0, "Unknown"⟩]

def DICTIONARY_TABLES : List Dictionary :=
  [⟨"os", OS_SEED⟩, ⟨"browsers", BROWSER_SEED⟩, ⟨"countries", COUNTRY_SEED⟩, ⟨"cities", CITY_SEED⟩]

/-! ### The server -/

inductive SchemaCmd where
  /-- `CREATE TABLE IF NOT EXISTS` -/
  | command (table : String)
  | count (table : String)
  | insert (table : String) (values : List DictionaryRow)
  deriving DecidableEq, Repr

abbrev SchemaCmd.Res : SchemaCmd → Type
  | .command _ => Unit
  | .count _ => Nat
  | .insert _ _ => Unit

structure Tables where
  created : List String
  rows : String → List DictionaryRow

def Tables.empty : Tables := ⟨[], fun _ => []⟩

/-- What becomes of a request: its answer may be lost after the server has done what it asked. -/
inductive Delivery where
  | answered
  | refused
  | lost
  deriving DecidableEq, Repr

/-- What the server answers, and what it is left with. -/
def Tables.serve (s : Tables) : (c : SchemaCmd) → Except Unit c.Res × Tables
  | .command table =>
    (.ok (), if table ∈ s.created then s else { s with created := table :: s.created })
  | .count table => if table ∈ s.created then (.ok (s.rows table).length, s) else (.error (), s)
  | .insert table values =>
    if table ∈ s.created then
      (.ok (), { s with rows := Function.update s.rows table (s.rows table ++ values) })
    else (.error (), s)

def deliver (c : SchemaCmd) (delivery : Delivery) (s : Tables) : Except Unit c.Res × Tables :=
  match delivery with
  | .answered => s.serve c
  | .refused => (.error (), s)
  | .lost => (.error (), (s.serve c).2)

/-! ### A boot -/

abbrev schema : Signature := ⟨SchemaCmd, SchemaCmd.Res, Unit⟩

abbrev Boot := Async.Prog schema Unit

abbrev ask (c : SchemaCmd) : Async.Prog schema c.Res := Prog.perform (S := schema) c

def runDdlList : List String → Boot
  | [] => pure ()
  | table :: ddls => do
    ask (.command table)
    runDdlList ddls

def fetchRowCount (table : String) : Async.Prog schema Nat := ask (.count table)

def seedTableIfEmpty (d : Dictionary) : Boot := do
  let count ← fetchRowCount d.table
  if count > 0 then pure () else ask (.insert d.table d.rows)

def seedAllDictionaries : List Dictionary → Boot
  | [] => pure ()
  | d :: dictionaries => do
    seedTableIfEmpty d
    seedAllDictionaries dictionaries

/-- A failure is only logged: the API runs in degraded mode. -/
def initSchemaAndSeed : Boot :=
  Prog.tryCatch (do
    runDdlList STATS_DDL
    seedAllDictionaries DICTIONARY_TABLES) fun _ => pure ()

/-- The pods that boot, all on one server. -/
abbrev boots : Service schema where
  World := Tables
  Choice := Delivery
  exec _ c delivery s := some (deliver c delivery s)
  Req := Unit
  Ans := Unit
  prog _ := initSchemaAndSeed
  Env := Empty
  tick := nofun

end Mikrouli.StatsSchema
