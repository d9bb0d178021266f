import Mikrouli.Lib.Sql

/-! Rows that fit a catalogue. Every statement leaves rows that fit; a script that only widens the
catalogue, or only narrows it, leaves the rows that fit the narrower side as they are. -/

namespace Sql

variable {env : Env} {s : Statement} {script : List Statement} {c c' : Catalogue} {rows : Rows}
  {d d' : Database}

/-! ### Rows that fit a catalogue -/

/-- A column that is not NULL has a value, and what is no column has none. -/
def FitsColumn : Option Column → Option Value → Prop
  | none, v => v = none
  | some col, v => col.notNull = true → v.isSome = true

def Row.Fits (t : TableDef) (r : Row) : Prop :=
  ∀ column, FitsColumn (t.column? column) (r column)

def FitsTable : Option TableDef → List Row → Prop
  | none, rows => rows = []
  | some t, rows => ∀ r ∈ rows, r.Fits t

def Catalogue.Fits (c : Catalogue) (rows : Rows) : Prop :=
  ∀ name, FitsTable (c.table? name) (rows name)

theorem fits_nil : c.Fits fun _ => [] := by
  intro name
  cases c.table? name <;> simp [FitsTable]

namespace Catalogue.Fits

theorem nil_of_undefined (fits : c.Fits rows) {name : String} (undefined : c.table? name = none) :
    rows name = [] := by
  simpa [undefined, FitsTable] using fits name

theorem row (fits : c.Fits rows) {name : String} {t : TableDef} (found : c.table? name = some t)
    {r : Row} (present : r ∈ rows name) : r.Fits t := by
  have here := fits name
  rw [found] at here
  exact here r present

/-- Only one table changes. -/
theorem change {rows' : Rows} (table : String) (fits : c.Fits rows)
    (tables : ∀ name, name ≠ table → c'.table? name = c.table? name)
    (kept : ∀ name, name ≠ table → rows' name = rows name)
    (here : FitsTable (c'.table? table) (rows' table)) : c'.Fits rows' := by
  intro name
  by_cases same : name = table
  · exact same ▸ here
  · rw [tables name same, kept name same]
    exact fits name

/-- One table is altered. -/
theorem modify {f : TableDef → TableDef} (keeps : ∀ t, (f t).name = t.name) {table : String}
    {rows' : Rows} (fits : c.Fits rows) (kept : ∀ name, name ≠ table → rows' name = rows name)
    (undefined : rows table = [] → rows' table = [])
    (here : ∀ t, c.table? table = some t → FitsTable (some (f t)) (rows' table)) :
    (c.modify table f).Fits rows' := by
  refine fits.change table (fun _ => c.table?_modify_of_ne keeps) kept ?_
  rw [c.table?_modify_self keeps]
  cases found : c.table? table with
  | none => exact undefined (fits.nil_of_undefined found)
  | some t => exact here t found

/-- Rows that fit an altered table fitted it before, where each of them did. -/
theorem of_modify {f : TableDef → TableDef} (keeps : ∀ t, (f t).name = t.name) {table : String}
    (fits : (c.modify table f).Fits rows)
    (before : ∀ t, c.table? table = some t → ∀ r, Row.Fits (f t) r → r.Fits t) : c.Fits rows := by
  refine fits.change table (fun _ other => (c.table?_modify_of_ne keeps other).symm)
    (fun _ _ => rfl) ?_
  have here := fits table
  rw [c.table?_modify_self keeps] at here
  cases found : c.table? table with
  | none => simpa [found] using here
  | some t =>
    rw [found] at here
    exact fun r present => before t found r (here r present)

theorem of_tables (fits : c.Fits rows) (same : c'.tables = c.tables) : c'.Fits rows := by
  intro name
  rw [Catalogue.table?_of_tables same]
  exact fits name

end Catalogue.Fits

/-- The statements after which whatever fitted still fits. -/
def Statement.widens : Statement → Bool
  | .createTable _ | .createIndex _ | .dropIndexIfExists _ | .dropNotNull _ _
  | .createExtensionIfNotExists _ | .dropExtensionIfExists _ => true
  | .addColumns _ columns => columns.all fun col => !col.notNull && decide (col.byDefault = .null)
  | _ => false

/-- The statements before which whatever fits after them fitted as well. -/
def Statement.narrows (c : Catalogue) : Statement → Bool
  | .dropTable _ | .dropTableIfExists _ | .createIndex _ | .dropIndexIfExists _ | .setNotNull _ _
  | .createExtensionIfNotExists _ | .dropExtensionIfExists _ => true
  | .dropColumns table columns =>
    columns.all fun column => (c.column? table column).all fun col => !col.notNull
  | _ => false

/-! ### One row -/

section Row

variable {t : TableDef} {r : Row} {column : String}

theorem Row.Fits.dropNotNull (fits : r.Fits t) : r.Fits (t.constrain column false) := by
  intro name
  have here := fits name
  rw [TableDef.column?_constrain]
  cases found : t.column? name with
  | none => simpa [found] using here
  | some col => by_cases same : name = column <;> simp_all [FitsColumn]

theorem Row.fits_setNotNull : r.Fits (t.constrain column true) ↔
    r.Fits t ∧ ((t.column? column).isSome → (r column).isSome) := by
  constructor
  · intro fits
    refine ⟨fun name => ?_, fun defined => ?_⟩
    · have here := fits name
      rw [TableDef.column?_constrain] at here
      cases found : t.column? name with
      | none => simpa [found] using here
      | some col => by_cases same : name = column <;> simp_all [FitsColumn]
    · obtain ⟨col, found⟩ := Option.isSome_iff_exists.mp defined
      have here := fits column
      rw [TableDef.column?_constrain] at here
      simpa [found, FitsColumn] using here
  · rintro ⟨fits, filled⟩ name
    have here := fits name
    rw [TableDef.column?_constrain]
    cases found : t.column? name with
    | none => simpa [found] using here
    | some col => by_cases same : name = column <;> simp_all [FitsColumn]

theorem Row.Fits.extend {columns : List Column} (fits : r.Fits t)
    (fresh : ∀ col ∈ columns, t.column? col.name = none)
    (complete : ∀ col ∈ columns, col.notNull = true → (env.eval col.byDefault).isSome = true) :
    Row.Fits (t.extend columns) (r.extend env columns) := by
  intro name
  have here := fits name
  simp only [TableDef.column?_extend, Row.extend]
  cases new : columns.find? fun col => decide (col.name = name) with
  | none => simpa using here
  | some col =>
    have mem := List.mem_of_find?_eq_some new
    have named : col.name = name := by simpa using List.find?_some new
    have undefined := fresh col mem
    rw [named] at undefined
    simpa [undefined, FitsColumn] using complete col mem

/-- A row that is written out column by column. -/
theorem Row.fits_lookup {values : List (String × Value)}
    (known : ∀ v ∈ values, (t.column? v.1).isSome = true)
    (complete : ∀ col ∈ t.columns, col.notNull = true → (values.lookup col.name).isSome = true) :
    Row.Fits t fun column => values.lookup column := by
  intro column
  cases found : t.column? column with
  | none =>
    by_contra given
    obtain ⟨v, lookup⟩ := Option.ne_none_iff_exists'.mp given
    obtain ⟨_, _, rfl, -⟩ := List.lookup_eq_some_iff.mp lookup
    have defined := known (column, v) (by simp)
    simp [found] at defined
  | some col =>
    have name := TableDef.name_of_column? found
    exact fun notNull => name ▸ complete col (List.mem_of_find?_eq_some found) notNull

theorem Row.Fits.without (fits : r.Fits t) (columns : List String) :
    Row.Fits (t.without columns) fun column => if column ∈ columns then none else r column := by
  intro name
  rw [TableDef.column?_without]
  by_cases gone : name ∈ columns
  · simp [gone, FitsColumn]
  · simpa [gone] using fits name

/-- What only has nullable columns dropped fitted before. -/
theorem Row.Fits.of_without {columns : List String} (fits : r.Fits (t.without columns))
    (nullable : ∀ column ∈ columns, ∀ col, t.column? column = some col → col.notNull = false) :
    r.Fits t ∧ ∀ column ∈ columns, r column = none := by
  have absent : ∀ column ∈ columns, r column = none := fun column gone => by
    simpa [TableDef.column?_without, gone, FitsColumn] using fits column
  refine ⟨fun name => ?_, absent⟩
  by_cases gone : name ∈ columns
  · rw [absent name gone]
    cases found : t.column? name with
    | none => rfl
    | some col => simp [FitsColumn, nullable name gone col found]
  · simpa [TableDef.column?_without, gone] using fits name

end Row

/-! ### Statements that take no row and bring none -/

theorem Catalogue.Fits.widen (fits : c.Fits rows) (widens : s.widens = true)
    (defined : s.define c = some c') : c'.Fits rows := by
  cases s with
  | createIndex | dropIndexIfExists | createExtensionIfNotExists | dropExtensionIfExists =>
    exact fits.of_tables (tables_of_keepsTables rfl defined)
  | createTable t =>
    obtain ⟨undefined, tables⟩ := define_createTable defined
    refine fits.change t.name (fun name other => ?_) (fun _ _ => rfl) ?_
    · simp [tables, Ne.symm other]
    · simp [tables, undefined, fits.nil_of_undefined undefined, FitsTable]
  | dropNotNull table column =>
    obtain rfl := define_dropNotNull defined
    exact fits.modify (f := fun t => t.constrain column false) (fun _ => rfl) (fun _ _ => rfl) id
      fun t found r present => (fits.row found present).dropNotNull
  | addColumns table columns =>
    obtain ⟨fresh, rfl⟩ := define_addColumns defined
    refine fits.modify (f := fun t => t.extend columns) (fun _ => rfl) (fun _ _ => rfl) id
      fun t found r present name => ?_
    have here := fits.row found present name
    rw [TableDef.column?_extend]
    cases old : t.column? name with
    | some col => simpa [old] using here
    | none =>
      rw [old] at here
      cases new : columns.find? fun col => decide (col.name = name) with
      | none => simpa using here
      | some col =>
        have nullable := List.all_eq_true.mp widens col (List.mem_of_find?_eq_some new)
        simp_all [FitsColumn]
  | _ => simp [Statement.widens] at widens

theorem fill_of_widens (fits : c.Fits rows) (widens : s.widens = true)
    (defined : s.define c = some c') : s.fill env c rows = some rows := by
  cases s with
  | createTable t =>
    have undefined := (define_createTable defined).1
    simp [Statement.fill, ← fits.nil_of_undefined undefined]
  | addColumns table columns =>
    obtain ⟨fresh, -⟩ := define_addColumns defined
    have plain : ∀ col ∈ columns, col.notNull = false ∧ col.byDefault = .null := by
      simpa [Statement.widens] using widens
    have same : ∀ r ∈ rows table, r.extend env columns = r := by
      intro r present
      funext column
      simp only [Row.extend]
      cases new : columns.find? fun col => decide (col.name = column) with
      | none => rfl
      | some col =>
        have mem := List.mem_of_find?_eq_some new
        have name : col.name = column := by simpa using List.find?_some new
        have undefined := fresh col mem
        cases found : c.table? table with
        | none => simp [fits.nil_of_undefined found] at present
        | some t =>
          have here := fits.row found present column
          simp only [Catalogue.column?, found, Option.bind_some, name] at undefined
          rw [undefined] at here
          simpa [(plain col mem).2, Env.eval] using Eq.symm here
    have filled : ((rows table).any fun _ => columns.any fun col =>
        col.notNull && (env.eval col.byDefault).isNone) = false := by
      simp only [List.any_eq_false, Bool.not_eq_true]
      intro _ _ col mem
      simp [(plain col mem).1]
    simp only [Statement.fill, filled, Bool.false_eq_true, if_false, Option.some.injEq,
      Function.update_eq_self_iff]
    exact (List.map_congr_left same).trans (List.map_id _)
  | _ => simp_all [Statement.fill, Statement.widens]

theorem nullable_of_narrows {table : String} {columns : List String}
    (narrows : (Statement.dropColumns table columns).narrows c = true) {t : TableDef}
    (found : c.table? table = some t) :
    ∀ column ∈ columns, ∀ col, t.column? column = some col → col.notNull = false := by
  intro column gone col named
  have nullable := List.all_eq_true.mp narrows column gone
  simpa [Catalogue.column?, found, named] using nullable

theorem Catalogue.Fits.of_narrow (fits : c'.Fits rows) (narrows : s.narrows c = true)
    (defined : s.define c = some c') : c.Fits rows := by
  cases s with
  | createIndex | dropIndexIfExists | createExtensionIfNotExists | dropExtensionIfExists =>
    exact fits.of_tables (tables_of_keepsTables rfl defined).symm
  | dropTable table | dropTableIfExists table =>
    have tables := define_drop table (by simp) defined
    have gone : rows table = [] := fits.nil_of_undefined (by simp [tables])
    refine fits.change table (fun name other => ?_) (fun _ _ => rfl) ?_
    · simp [tables, other]
    · rw [gone]
      cases c.table? table <;> simp [FitsTable]
  | setNotNull table column =>
    obtain rfl := define_setNotNull defined
    exact fits.of_modify (f := fun t => t.constrain column true) (fun _ => rfl)
      fun t _ r fits => (Row.fits_setNotNull.mp fits).1
  | dropColumns table columns =>
    have modified := fits.of_tables (define_dropColumns defined).symm
    exact modified.of_modify (f := fun t => t.without columns) (fun _ => rfl)
      fun t found r fits => (Row.Fits.of_without fits (nullable_of_narrows narrows found)).1
  | _ => simp [Statement.narrows] at narrows

theorem fill_of_narrows (fits : c'.Fits rows) (narrows : s.narrows c = true)
    (defined : s.define c = some c') : s.fill env c rows = some rows := by
  cases s with
  | dropTable table | dropTableIfExists table =>
    have tables := define_drop table (by simp) defined
    have gone : rows table = [] := fits.nil_of_undefined (by simp [tables])
    simp [Statement.fill, ← gone]
  | setNotNull table column =>
    have here := fits table
    obtain ⟨t, col, found, named⟩ := define_setNotNull_defined defined
    rw [define_setNotNull defined,
      c.table?_modify_self (f := fun t => t.constrain column true) fun _ => rfl, found] at here
    have filled : ∀ r ∈ rows table, (r column).isSome = true := fun r present =>
      (Row.fits_setNotNull.mp (here r present)).2 (by simp [named])
    simp [Statement.fill, List.all_eq_true.mpr filled]
  | dropColumns table columns =>
    have here := (fits.of_tables (define_dropColumns defined).symm) table
    rw [c.table?_modify_self (f := fun t => t.without columns) fun _ => rfl] at here
    have same : ∀ r ∈ rows table,
        (fun column => if column ∈ columns then none else r column) = r := by
      intro r present
      cases found : c.table? table with
      | none => simp_all [FitsTable]
      | some t =>
        rw [found] at here
        have absent := (Row.Fits.of_without (here r present) (nullable_of_narrows narrows found)).2
        funext column
        by_cases gone : column ∈ columns
        · simp [gone, absent column gone]
        · simp [gone]
    simp only [Statement.fill, Option.some.injEq, Function.update_eq_self_iff]
    exact (List.map_congr_left same).trans (List.map_id _)
  | _ => simp_all [Statement.fill, Statement.narrows]

/-- Each statement of a script narrows the catalogue that it finds. -/
def narrowing : List Statement → Catalogue → Bool
  | [], _ => true
  | s :: script, c => s.narrows c && (s.define c).all (narrowing script)

theorem Catalogue.Fits.widen_all (fits : c.Fits rows) (env : Env)
    (widens : ∀ s ∈ script, s.widens = true) (defined : defines script c = some c') :
    c'.Fits rows ∧ atomically env script ⟨c, rows⟩ = some ⟨c', rows⟩ := by
  induction script generalizing c with
  | nil =>
    obtain rfl : c = c' := by simpa using defined
    exact ⟨fits, atomically_nil⟩
  | cons s script ih =>
    obtain ⟨mid, first, rest⟩ := Option.bind_eq_some_iff.mp (defines_cons ▸ defined)
    have widens_s := widens s (List.mem_cons_self ..)
    have ran : s.run env ⟨c, rows⟩ = some ⟨mid, rows⟩ :=
      run_eq_some.mpr ⟨first, fill_of_widens fits widens_s first⟩
    have ⟨fits', done⟩ := ih (fits.widen widens_s first)
      (fun s mem => widens s (List.mem_cons_of_mem _ mem)) rest
    exact ⟨fits', by simp [ran, done]⟩

theorem Catalogue.Fits.of_narrowing (fits : c'.Fits rows) (env : Env)
    (narrows : narrowing script c = true) (defined : defines script c = some c') :
    c.Fits rows ∧ atomically env script ⟨c, rows⟩ = some ⟨c', rows⟩ := by
  induction script generalizing c with
  | nil =>
    obtain rfl : c = c' := by simpa using defined
    exact ⟨fits, atomically_nil⟩
  | cons s script ih =>
    obtain ⟨mid, first, rest⟩ := Option.bind_eq_some_iff.mp (defines_cons ▸ defined)
    obtain ⟨narrows_s, narrows_rest⟩ : s.narrows c = true ∧ narrowing script mid = true := by
      simpa [narrowing, first] using narrows
    have ⟨fits', done⟩ := ih narrows_rest rest
    have ran : s.run env ⟨c, rows⟩ = some ⟨mid, rows⟩ :=
      run_eq_some.mpr ⟨first, fill_of_narrows fits' narrows_s first⟩
    exact ⟨fits'.of_narrow narrows_s first, by simp [ran, done]⟩

/-! ### Every statement leaves rows that fit -/

theorem fits_insert {t : TableDef} {rows' : Rows} {values : List (String × Expr)}
    {conflict : List String} (fits : c.Fits rows) (found : c.table? t.name = some t)
    (filled : t.insert rows (t.newRow env values) conflict = some rows') : c.Fits rows' := by
  simp only [TableDef.insert] at filled
  split at filled
  · cases filled
  next complete =>
  split at filled
  · exact Option.some.inj filled ▸ fits
  split at filled
  · cases filled
  split at filled
  · cases filled
  obtain rfl := Option.some.inj filled
  refine fits.change t.name (fun _ _ => rfl) (fun name other => by simp [other]) ?_
  rw [found, Function.update_self]
  intro r present
  rcases List.mem_cons.mp present with rfl | old
  · intro column
    cases named : t.column? column with
    | none => simp [FitsColumn, TableDef.newRow, named]
    | some col =>
      intro notNull
      have mem := List.mem_of_find?_eq_some named
      have name := TableDef.name_of_column? named
      simp only [List.any_eq_true, not_exists, not_and, Bool.and_eq_true] at complete
      have given := complete col mem notNull
      rw [name] at given
      simpa [Option.isSome_iff_ne_none] using given
  · exact fits.row found old

theorem run_fits (fits : d.catalogue.Fits d.rows) (ran : s.run env d = some d') :
    d'.catalogue.Fits d'.rows := by
  obtain ⟨defined, filled⟩ := run_eq_some.mp ran
  cases s with
  | createTable | createIndex | dropIndexIfExists | dropNotNull | createExtensionIfNotExists
  | dropExtensionIfExists =>
    obtain same := (fill_of_widens fits rfl defined).symm.trans filled
    exact Option.some.inj same ▸ fits.widen rfl defined
  | dropTable table | dropTableIfExists table =>
    have tables := define_drop table (by simp) defined
    have rows := Option.some.inj filled
    refine fits.change table (fun name other => by simp [tables, other])
      (fun name other => by simp [← rows, other]) ?_
    simp [tables, ← rows, FitsTable]
  | setNotNull table column =>
    simp only [Statement.fill, Option.ite_none_right_eq_some, List.all_eq_true] at filled
    obtain ⟨all, same⟩ := filled
    rw [define_setNotNull defined, ← Option.some.inj same]
    exact fits.modify (f := fun t => t.constrain column true) (fun _ => rfl) (fun _ _ => rfl) id
      fun t found r present =>
        Row.fits_setNotNull.mpr ⟨fits.row found present, fun _ => all r present⟩
  | addColumns table columns =>
    obtain ⟨fresh, added⟩ := define_addColumns defined
    simp only [Statement.fill, Option.ite_none_left_eq_some, Option.some.injEq] at filled
    obtain ⟨complete, rfl'⟩ := filled
    rw [added, ← rfl']
    refine fits.modify (f := fun t => t.extend columns) (fun _ => rfl)
      (fun name other => by simp [other]) (fun none => by simp [none]) fun t found => ?_
    rw [Function.update_self]
    intro r present
    obtain ⟨r, old, rfl⟩ := List.mem_map.mp present
    refine (fits.row found old).extend (fun col mem => ?_) fun col mem notNull => ?_
    · simpa [Catalogue.column?, found] using fresh col mem
    · simp only [List.any_eq_true, not_exists, not_and, Bool.and_eq_true] at complete
      simpa [Option.isSome_iff_ne_none] using complete r old col mem notNull
  | dropColumns table columns =>
    rw [← Option.some.inj filled]
    refine Catalogue.Fits.of_tables ?_ (define_dropColumns defined)
    refine fits.modify (f := fun t => t.without columns) (fun _ => rfl)
      (fun name other => by simp [other]) (fun none => by simp [none]) fun t found => ?_
    rw [Function.update_self]
    intro r present
    obtain ⟨r, old, rfl⟩ := List.mem_map.mp present
    exact (fits.row found old).without columns
  | insertOrIgnore table values conflict =>
    rw [define_insertOrIgnore defined]
    obtain ⟨t, found, inserted⟩ := Option.bind_eq_some_iff.mp filled
    exact fits_insert fits ((Catalogue.name_of_table? found).symm ▸ found) inserted
  | deleteWhere table column value =>
    rw [define_deleteWhere defined, ← Option.some.inj filled]
    intro name
    have here := fits name
    cases found : d.catalogue.table? name with
    | none => simp_all [FitsTable, deleteRows]
    | some t =>
      rw [found] at here
      exact fun r present => here r (List.mem_filter.mp present).1

theorem atomically_fits (fits : d.catalogue.Fits d.rows)
    (done : atomically env script d = some d') : d'.catalogue.Fits d'.rows := by
  induction script generalizing d with
  | nil =>
    obtain rfl : d = d' := by simpa using done
    exact fits
  | cons s script ih =>
    obtain ⟨mid, ran, rest⟩ := Option.bind_eq_some_iff.mp (atomically_cons ▸ done)
    exact ih (run_fits fits ran) rest

/-! ### Rows that a script takes or brings -/

/-- The statements that no rows stand in the way of. -/
def Statement.alwaysFills : Statement → Bool
  | .setNotNull _ _ | .addColumns _ _ | .insertOrIgnore _ _ _ => false
  | _ => true

theorem isSome_atomically_of_alwaysFills (fills : ∀ s ∈ script, s.alwaysFills = true) :
    (atomically env script d).isSome = (defines script d.catalogue).isSome := by
  induction script generalizing d with
  | nil => simp
  | cons s script ih =>
    have filled : ∃ rows, s.fill env d.catalogue d.rows = some rows := by
      have fills_s := fills s (List.mem_cons_self ..)
      cases s <;> simp_all [Statement.fill, Statement.alwaysFills]
    obtain ⟨rows, filled⟩ := filled
    cases defined : s.define d.catalogue with
    | none => simp [Statement.run, defined]
    | some mid =>
      have ran : s.run env d = some ⟨mid, rows⟩ := run_eq_some.mpr ⟨defined, filled⟩
      simp [ran, defined, ih fun s mem => fills s (List.mem_cons_of_mem _ mem)]

/-- Only an INSERT brings rows. -/
def Statement.inserts : Statement → Bool
  | .insertOrIgnore _ _ _ => true
  | _ => false

theorem length_run_le (brings : s.inserts = false) (ran : s.run env d = some d') (name : String) :
    (d'.rows name).length ≤ (d.rows name).length := by
  have filled := (run_eq_some.mp ran).2
  cases s with
  | insertOrIgnore => simp [Statement.inserts] at brings
  | createTable t | dropTable t | dropTableIfExists t =>
    rw [← Option.some.inj filled, Function.update_apply]
    split <;> simp
  | addColumns table columns =>
    simp only [Statement.fill, Option.ite_none_left_eq_some, Option.some.injEq] at filled
    rw [← filled.2, Function.update_apply]
    split <;> simp_all
  | dropColumns table columns =>
    rw [← Option.some.inj filled, Function.update_apply]
    split <;> simp_all
  | setNotNull table column =>
    simp only [Statement.fill, Option.ite_none_right_eq_some, Option.some.injEq] at filled
    exact filled.2 ▸ Nat.le_refl _
  | deleteWhere table column value =>
    rw [← Option.some.inj filled]
    exact List.length_filter_le _ _
  | _ => exact Option.some.inj filled ▸ Nat.le_refl _

theorem length_atomically_le (brings : ∀ s ∈ script, s.inserts = false)
    (done : atomically env script d = some d') (name : String) :
    (d'.rows name).length ≤ (d.rows name).length := by
  induction script generalizing d with
  | nil =>
    obtain rfl : d = d' := by simpa using done
    exact Nat.le_refl _
  | cons s script ih =>
    obtain ⟨mid, ran, rest⟩ := Option.bind_eq_some_iff.mp (atomically_cons ▸ done)
    exact Nat.le_trans (ih (fun s mem => brings s (List.mem_cons_of_mem _ mem)) rest)
      (length_run_le (brings s (List.mem_cons_self ..)) ran name)

section Delete

variable {table : String} {p : Row → Bool}

theorem deleted_of_matches {r : Row} (p_r : p r = true) (n : Nat) :
    deleted c rows table p n table r = true := by
  induction n with
  | zero => simp [deleted, p_r]
  | succ n ih => simp [deleted, ih]

/-- No row refers to one that goes. -/
theorem deleteRows_of_unreferenced
    (unreferenced : ∀ name t, c.table? name = some t → ∀ ref ∈ t.references, ref.table = table →
      ∀ target ∈ rows table, p target = true → ∀ r ∈ rows name, r ref.column ≠ target "id")
    (name : String) : deleteRows c rows table p name =
      if name = table then (rows table).filter fun r => !p r else rows name := by
  have direct : ∀ n name, ∀ r ∈ rows name,
      deleted c rows table p n name r = (decide (name = table) && p r) := by
    intro n
    induction n with
    | zero => simp [deleted]
    | succ n ih =>
      intro name r present
      simp only [deleted, ih name r present, Bool.or_eq_left_iff_imp, Option.any_eq_true,
        List.any_eq_true, Bool.and_eq_true, decide_eq_true_eq]
      rintro ⟨t, found, ref, mem, target, there, ⟨gone, -⟩, same⟩
      rw [ih ref.table target there] at gone
      simp only [Bool.and_eq_true, decide_eq_true_eq] at gone
      exact absurd same.symm
        (unreferenced name t found ref mem gone.1 target (gone.1 ▸ there) gone.2 r present)
  simp only [deleteRows]
  rw [List.filter_congr fun r present => by rw [direct _ name r present]]
  by_cases same : name = table <;> simp [same]

end Delete

end Sql
