import Mathlib.Logic.Function.Basic

/-! The part of SQL that schema migrations are written in: what a statement makes of the catalogue,
and of the rows that lie under it. A statement that fails has no result. -/

namespace Sql

/-! ### Catalogues -/

abbrev Value := String

inductive Expr where
  | null
  | text (s : Value)
  | genRandomUuid
  | now
  deriving DecidableEq, Repr

structure Column where
  name : String
  type : String
  notNull : Bool
  byDefault : Expr
  deriving DecidableEq, Repr

/-- A primary key or a unique constraint. -/
structure Key where
  name : String
  columns : List String
  deriving DecidableEq, Repr

/-- `FOREIGN KEY (column) REFERENCES table(id) ON DELETE CASCADE` -/
structure Reference where
  name : String
  column : String
  table : String
  deriving DecidableEq, Repr

structure TableDef where
  name : String
  columns : List Column
  keys : List Key
  references : List Reference
  deriving DecidableEq, Repr

structure Index where
  name : String
  table : String
  columns : List String
  predicate : Option String
  deriving DecidableEq, Repr

structure Catalogue where
  tables : List TableDef
  indexes : List Index
  extensions : List String
  deriving DecidableEq, Repr

def TableDef.column? (t : TableDef) (name : String) : Option Column :=
  t.columns.find? fun c => decide (c.name = name)

namespace Catalogue

variable (c : Catalogue)

def empty : Catalogue := ⟨[], [], []⟩

def table? (name : String) : Option TableDef := c.tables.find? fun t => decide (t.name = name)

def column? (table column : String) : Option Column :=
  (c.table? table).bind fun t => t.column? column

def modify (table : String) (f : TableDef → TableDef) : Catalogue :=
  { c with tables := c.tables.map fun t => if t.name = table then f t else t }

/-- Another table refers to this one. -/
def isReferenced (table : String) : Bool :=
  c.tables.any fun t =>
    decide (t.name ≠ table) && t.references.any fun r => decide (r.table = table)

end Catalogue

namespace TableDef

variable (t : TableDef)

/-- `ALTER COLUMN column SET NOT NULL`, or `DROP NOT NULL` -/
def constrain (column : String) (notNull : Bool) : TableDef :=
  { t with columns := t.columns.map fun c => if c.name = column then { c with notNull } else c }

/-- `ADD COLUMN …` -/
def extend (columns : List Column) : TableDef := { t with columns := t.columns ++ columns }

/-- `DROP COLUMN …`: the constraints of a column go with it. -/
def without (columns : List String) : TableDef :=
  { t with
    columns := t.columns.filter fun c => decide (c.name ∉ columns)
    keys := t.keys.filter fun key => !key.columns.any fun name => decide (name ∈ columns)
    references := t.references.filter fun r => decide (r.column ∉ columns) }

end TableDef

/-! ### Statements -/

inductive Statement where
  | createTable (t : TableDef)
  | dropTable (name : String)
  | dropTableIfExists (name : String)
  | createIndex (index : Index)
  | dropIndexIfExists (name : String)
  | setNotNull (table column : String)
  | dropNotNull (table column : String)
  | addColumns (table : String) (columns : List Column)
  | dropColumns (table : String) (columns : List String)
  | insertOrIgnore (table : String) (values : List (String × Expr)) (conflict : List String)
  | deleteWhere (table column : String) (value : Value)
  | createExtensionIfNotExists (name : String)
  | dropExtensionIfExists (name : String)
  deriving DecidableEq, Repr

/-- Tables that others refer to stay. -/
def Catalogue.dropTable (c : Catalogue) (name : String) : Option Catalogue :=
  if c.isReferenced name then none
  else some { c with
    tables := c.tables.filter fun t => decide (t.name ≠ name)
    indexes := c.indexes.filter fun i => decide (i.table ≠ name) }

/-- What a statement makes of the catalogue, if the catalogue allows it. -/
def Statement.define : Statement → Catalogue → Option Catalogue
  | .createTable t, c =>
    if (c.table? t.name).isSome ||
        t.references.any fun r => decide (r.table ≠ t.name) && (c.table? r.table).isNone then none
    else some { c with tables := c.tables ++ [t] }
  | .dropTable name, c => if (c.table? name).isNone then none else c.dropTable name
  | .dropTableIfExists name, c => if (c.table? name).isNone then some c else c.dropTable name
  | .createIndex index, c =>
    if c.indexes.any (fun i => decide (i.name = index.name)) ||
        index.columns.any fun column => (c.column? index.table column).isNone then none
    else some { c with indexes := c.indexes ++ [index] }
  | .dropIndexIfExists name, c =>
    some { c with indexes := c.indexes.filter fun i => decide (i.name ≠ name) }
  | .setNotNull table column, c =>
    if (c.column? table column).isNone then none
    else some (c.modify table fun t => t.constrain column true)
  | .dropNotNull table column, c =>
    if (c.column? table column).isNone then none
    else some (c.modify table fun t => t.constrain column false)
  | .addColumns table columns, c =>
    if (c.table? table).isNone || columns.any fun col => (c.column? table col.name).isSome then none
    else some (c.modify table fun t => t.extend columns)
  | .dropColumns table columns, c =>
    if columns.any fun column => (c.column? table column).isNone then none
    -- the indexes of a column go with it
    else some { c.modify table fun t => t.without columns with
      indexes := c.indexes.filter fun i =>
        !(decide (i.table = table) && i.columns.any fun name => decide (name ∈ columns)) }
  | .insertOrIgnore table values conflict, c =>
    if values.any (fun v => (c.column? table v.1).isNone) ||
        !((c.table? table).any fun t => t.keys.any fun key => decide (key.columns = conflict)) then
      none
    else some c
  | .deleteWhere table column _, c => if (c.column? table column).isNone then none else some c
  | .createExtensionIfNotExists name, c =>
    some { c with extensions := c.extensions.filter (fun e => decide (e ≠ name)) ++ [name] }
  | .dropExtensionIfExists name, c =>
    some { c with extensions := c.extensions.filter fun e => decide (e ≠ name) }

/-! ### Rows -/

/-- The value of each column, none for NULL. -/
abbrev Row := String → Option Value

abbrev Rows := String → List Row

structure Database where
  catalogue : Catalogue
  rows : Rows

def Database.empty : Database := ⟨Catalogue.empty, fun _ => []⟩

/-- What a statement finds in its surroundings: no statement here draws twice. -/
structure Env where
  uuid : Value
  now : Value

def Env.eval (env : Env) : Expr → Option Value
  | .null => none
  | .text s => some s
  | .genRandomUuid => some env.uuid
  | .now => some env.now

/-- Two rows agree on the columns of a key: NULL agrees with nothing. -/
def Row.clash (r r' : Row) (columns : List String) : Bool :=
  columns.all fun column => (r column).isSome && decide (r column = r' column)

/-- The row that is inserted: what is not given is left to the defaults. -/
def TableDef.newRow (t : TableDef) (env : Env) (values : List (String × Expr)) : Row := fun column =>
  match t.column? column with
  | none => none
  | some col => env.eval ((values.lookup column).getD col.byDefault)

/-- The new columns of a row that is there already. -/
def Row.extend (r : Row) (env : Env) (columns : List Column) : Row := fun column =>
  match columns.find? fun col => decide (col.name = column) with
  | some col => env.eval col.byDefault
  | none => r column

/-- `INSERT … ON CONFLICT (conflict) DO NOTHING` -/
def TableDef.insert (t : TableDef) (rows : Rows) (row : Row) (conflict : List String) :
    Option Rows :=
  if t.columns.any fun col => col.notNull && (row col.name).isNone then none
  else if (rows t.name).any fun r => r.clash row conflict then some rows
  else if t.keys.any fun key => (rows t.name).any fun r => r.clash row key.columns then none
  else if t.references.any fun ref => (row ref.column).isSome &&
      !((rows ref.table).any fun target => decide (target "id" = row ref.column)) then none
  else some (Function.update rows t.name (row :: rows t.name))

/-- The rows that a DELETE reaches within `n` references. -/
def deleted (c : Catalogue) (rows : Rows) (table : String) (p : Row → Bool) :
    Nat → String → Row → Bool
  | 0, t, r => decide (t = table) && p r
  | n + 1, t, r => deleted c rows table p n t r ||
    (c.table? t).any fun t => t.references.any fun ref => (rows ref.table).any fun target =>
      deleted c rows table p n ref.table target && (target "id").isSome &&
        decide (target "id" = r ref.column)

/-- A chain of references is no longer than there are rows. -/
def deleteRows (c : Catalogue) (rows : Rows) (table : String) (p : Row → Bool) : Rows :=
  let reach := c.tables.foldl (fun n t => n + (rows t.name).length) 0
  fun t => (rows t).filter fun r => !deleted c rows table p reach t r

/-- What a statement makes of the rows, if they allow it. -/
def Statement.fill (env : Env) : Statement → Catalogue → Rows → Option Rows
  | .createTable t, _, rows => some (Function.update rows t.name [])
  | .dropTable name, _, rows | .dropTableIfExists name, _, rows => some (Function.update rows name [])
  | .setNotNull table column, _, rows =>
    if (rows table).all fun r => (r column).isSome then some rows else none
  | .addColumns table columns, _, rows =>
    if (rows table).any fun _ => columns.any fun col =>
        col.notNull && (env.eval col.byDefault).isNone then none
    else some (Function.update rows table ((rows table).map fun r => r.extend env columns))
  | .dropColumns table columns, _, rows =>
    some (Function.update rows table
      ((rows table).map fun r column => if column ∈ columns then none else r column))
  | .insertOrIgnore table values conflict, c, rows =>
    (c.table? table).bind fun t => t.insert rows (t.newRow env values) conflict
  | .deleteWhere table column value, c, rows =>
    some (deleteRows c rows table fun r => decide (r column = some value))
  | .createIndex _, _, rows | .dropIndexIfExists _, _, rows | .dropNotNull _ _, _, rows
  | .createExtensionIfNotExists _, _, rows | .dropExtensionIfExists _, _, rows => some rows

def Statement.run (env : Env) (s : Statement) (d : Database) : Option Database := do
  let catalogue ← s.define d.catalogue
  let rows ← s.fill env d.catalogue d.rows
  pure ⟨catalogue, rows⟩

/-- A transaction: nothing is kept of one whose statements do not all succeed. -/
def atomically (env : Env) (script : List Statement) (d : Database) : Option Database :=
  script.foldlM (fun d s => s.run env d) d

/-- What the statements of a transaction make of the catalogue. -/
def defines (script : List Statement) (c : Catalogue) : Option Catalogue :=
  script.foldlM (fun c s => s.define c) c

/-! ### Scripts -/

variable {env : Env} {s : Statement} {script : List Statement} {c c' : Catalogue} {rows : Rows}
  {d d' : Database}

theorem run_eq_some : s.run env d = some d' ↔
    s.define d.catalogue = some d'.catalogue ∧
      s.fill env d.catalogue d.rows = some d'.rows := by
  simp only [Statement.run, Option.bind_eq_bind, Option.pure_def, Option.bind_eq_some_iff,
    Option.some.injEq]
  constructor
  · rintro ⟨catalogue, defined, rows, filled, rfl⟩
    exact ⟨defined, filled⟩
  · rintro ⟨defined, filled⟩
    exact ⟨_, defined, _, filled, rfl⟩

@[simp] theorem atomically_nil : atomically env [] d = some d := by simp [atomically]

@[simp] theorem atomically_cons :
    atomically env (s :: script) d = (s.run env d).bind (atomically env script) :=
  List.foldlM_cons

theorem atomically_append (more : List Statement) :
    atomically env (script ++ more) d =
      (atomically env script d).bind (atomically env more) :=
  List.foldlM_append

@[simp] theorem defines_nil : defines [] c = some c := by simp [defines]

@[simp] theorem defines_cons :
    defines (s :: script) c = (s.define c).bind (defines script) :=
  List.foldlM_cons

theorem defines_singleton : defines [s] c = s.define c := by
  rw [defines_cons]
  cases s.define c <;> simp

theorem defines_append (more : List Statement) :
    defines (script ++ more) c = (defines script c).bind (defines more) :=
  List.foldlM_append

theorem defines_of_atomically (done : atomically env script d = some d') :
    defines script d.catalogue = some d'.catalogue := by
  induction script generalizing d with
  | nil => simpa using congrArg (·.map Database.catalogue) done
  | cons s script ih =>
    obtain ⟨mid, ran, rest⟩ := Option.bind_eq_some_iff.mp (atomically_cons ▸ done)
    simp [(run_eq_some.mp ran).1, ih rest]

/-! ### What a statement leaves of the tables -/

namespace Catalogue

theorem name_of_table? {name : String} {t : TableDef} (found : c.table? name = some t) :
    t.name = name := by
  simpa using List.find?_some found

theorem table?_modify {f : TableDef → TableDef} (keeps : ∀ t, (f t).name = t.name)
    (table name : String) :
    (c.modify table f).table? name =
      (c.table? name).map fun t => if name = table then f t else t := by
  simp only [modify, table?]
  induction c.tables with
  | nil => simp
  | cons t ts ih =>
    by_cases same : t.name = name
    · subst same
      by_cases there : t.name = table <;> simp [there, keeps]
    · by_cases there : t.name = table <;> simp_all

theorem table?_modify_of_ne {f : TableDef → TableDef} (keeps : ∀ t, (f t).name = t.name)
    {table name : String} (other : name ≠ table) :
    (c.modify table f).table? name = c.table? name := by
  simp [table?_modify keeps, other]

theorem table?_modify_self {f : TableDef → TableDef} (keeps : ∀ t, (f t).name = t.name)
    (table : String) : (c.modify table f).table? table = (c.table? table).map f := by
  simp [table?_modify keeps]

theorem table?_of_tables (same : c'.tables = c.tables) (name : String) :
    c'.table? name = c.table? name := by
  simp [table?, same]

theorem table?_dropTable {table : String} (dropped : c.dropTable table = some c')
    (name : String) : c'.table? name = if name = table then none else c.table? name := by
  simp only [dropTable, Option.ite_none_left_eq_some, Option.some.injEq] at dropped
  obtain ⟨-, rfl⟩ := dropped
  simp only [table?, List.find?_filter]
  by_cases same : name = table
  · simp [same]
  · simp only [same, if_false]
    congr 1
    grind

end Catalogue

namespace TableDef

variable (t : TableDef)

theorem name_of_column? {t : TableDef} {name : String} {col : Column}
    (found : t.column? name = some col) : col.name = name := by
  simpa using List.find?_some found

theorem column?_constrain (column : String) (notNull : Bool) (name : String) :
    (t.constrain column notNull).column? name =
      (t.column? name).map fun col => if name = column then { col with notNull } else col := by
  simp only [constrain, column?]
  induction t.columns with
  | nil => simp
  | cons col cols ih =>
    by_cases same : col.name = name
    · subst same
      by_cases there : col.name = column <;> simp [there]
    · by_cases there : col.name = column <;> simp_all

theorem column?_extend (columns : List Column) (name : String) :
    (t.extend columns).column? name =
      (t.column? name).or (columns.find? fun col => decide (col.name = name)) := by
  simp [extend, column?, List.find?_append]

theorem column?_without (columns : List String) (name : String) :
    (t.without columns).column? name =
      if name ∈ columns then none else t.column? name := by
  simp only [without, column?, List.find?_filter]
  by_cases gone : name ∈ columns
  · simp only [gone, if_true, List.find?_eq_none]
    grind
  · simp only [gone, if_false]
    congr 1
    grind

end TableDef

/-! ### What a statement needs of the tables -/

section Define

variable {table column : String}

theorem define_createTable {t : TableDef} (defined : (Statement.createTable t).define c = some c') :
    c.table? t.name = none ∧
      ∀ name, c'.table? name = (c.table? name).or (if t.name = name then some t else none) := by
  simp only [Statement.define, Option.ite_none_left_eq_some, Bool.or_eq_true, not_or,
    Option.some.injEq] at defined
  obtain ⟨⟨fresh, -⟩, rfl⟩ := defined
  refine ⟨by simpa using fresh, fun name => ?_⟩
  simp only [Catalogue.table?, List.find?_append, List.find?_cons, List.find?_nil]
  by_cases same : t.name = name <;> simp [same]

theorem define_dropNotNull (defined : (Statement.dropNotNull table column).define c = some c') :
    c' = c.modify table fun t => t.constrain column false := by
  simp only [Statement.define, Option.ite_none_left_eq_some, Option.some.injEq] at defined
  exact defined.2.symm

theorem define_setNotNull_defined
    (defined : (Statement.setNotNull table column).define c = some c') :
    ∃ t col, c.table? table = some t ∧ t.column? column = some col := by
  simp only [Statement.define, Option.ite_none_left_eq_some, Option.isNone_iff_eq_none,
    ← ne_eq, Option.ne_none_iff_exists', Catalogue.column?, Option.bind_eq_some_iff] at defined
  obtain ⟨⟨col, t, found, named⟩, -⟩ := defined
  exact ⟨t, col, found, named⟩

theorem define_setNotNull (defined : (Statement.setNotNull table column).define c = some c') :
    c' = c.modify table fun t => t.constrain column true := by
  simp only [Statement.define, Option.ite_none_left_eq_some, Option.some.injEq] at defined
  exact defined.2.symm

theorem define_addColumns {columns : List Column}
    (defined : (Statement.addColumns table columns).define c = some c') :
    (∀ col ∈ columns, c.column? table col.name = none) ∧
      c' = c.modify table fun t => t.extend columns := by
  simp only [Statement.define, Option.ite_none_left_eq_some, Option.some.injEq, Bool.or_eq_true,
    not_or, List.any_eq_true, not_exists, not_and] at defined
  exact ⟨fun col mem => by simpa using defined.1.2 col mem, defined.2.symm⟩

theorem define_dropColumns {columns : List String}
    (defined : (Statement.dropColumns table columns).define c = some c') :
    c'.tables = (c.modify table fun t => t.without columns).tables := by
  simp only [Statement.define, Option.ite_none_left_eq_some, Option.some.injEq] at defined
  exact defined.2 ▸ rfl

theorem define_dropTable (defined : (Statement.dropTable table).define c = some c')
    (name : String) : c'.table? name = if name = table then none else c.table? name := by
  simp only [Statement.define, Option.ite_none_left_eq_some] at defined
  exact Catalogue.table?_dropTable defined.2 name

theorem define_dropTableIfExists
    (defined : (Statement.dropTableIfExists table).define c = some c') (name : String) :
    c'.table? name = if name = table then none else c.table? name := by
  simp only [Statement.define] at defined
  split at defined
  · next undefined =>
    obtain rfl := Option.some.inj defined
    by_cases same : name = table
    · simpa [same] using undefined
    · simp [same]
  · exact Catalogue.table?_dropTable defined name

theorem define_drop (table : String)
    (drops : s = .dropTable table ∨ s = .dropTableIfExists table)
    (defined : s.define c = some c') (name : String) :
    c'.table? name = if name = table then none else c.table? name := by
  rcases drops with rfl | rfl
  · exact define_dropTable defined name
  · exact define_dropTableIfExists defined name

theorem define_insertOrIgnore {values : List (String × Expr)} {conflict : List String}
    (defined : (Statement.insertOrIgnore table values conflict).define c = some c') : c' = c := by
  simp only [Statement.define, Option.ite_none_left_eq_some, Option.some.injEq] at defined
  exact defined.2.symm

theorem define_deleteWhere {value : Value}
    (defined : (Statement.deleteWhere table column value).define c = some c') : c' = c := by
  simp only [Statement.define, Option.ite_none_left_eq_some, Option.some.injEq] at defined
  exact defined.2.symm

/-- The statements about indexes and extensions. -/
def Statement.keepsTables : Statement → Bool
  | .createIndex _ | .dropIndexIfExists _
  | .createExtensionIfNotExists _ | .dropExtensionIfExists _ => true
  | _ => false

theorem tables_of_keepsTables (keeps : s.keepsTables = true) (defined : s.define c = some c') :
    c'.tables = c.tables := by
  cases s with
  | createIndex index =>
    simp only [Statement.define, Option.ite_none_left_eq_some, Option.some.injEq] at defined
    exact defined.2 ▸ rfl
  | dropIndexIfExists name | createExtensionIfNotExists name | dropExtensionIfExists name =>
    exact Option.some.inj defined ▸ rfl
  | _ => simp [Statement.keepsTables] at keeps

end Define

end Sql
