import Mikrouli.Model.Migrations

/-! What the migration tool makes of every database it can meet: a run always reaches the newest
schema and takes no row away, and a rollback gives back what was there before. -/

namespace Mikrouli.Migrations

open Sql

variable {s s' : Postgres} {env : Env} {rows : Rows} {n : Nat}
  {r : Row}

/-! ### Schemas -/

/-- All migrations but the seed only widen the schema, and their reverts only narrow it. -/
theorem schema_steps : ∀ n < migrations.length, ∀ m ∈ migrations[n]?,
    defines m.up (catalogueAt n) = some (catalogueAt (n + 1)) ∧
      defines m.down (catalogueAt (n + 1)) = some (catalogueAt n) ∧
      (n ≠ 6 → narrowing m.down (catalogueAt (n + 1)) = true) := by
  decide +kernel

theorem widens_up : ∀ n < migrations.length, n ≠ 6 → ∀ m ∈ migrations[n]?,
    ∀ s ∈ m.up, s.widens = true := by
  decide

theorem alwaysFills_down : ∀ n < migrations.length, n ≠ 4 → ∀ m ∈ migrations[n]?,
    ∀ s ∈ m.down, s.alwaysFills = true := by
  decide

theorem inserts_down : ∀ m ∈ migrations, ∀ s ∈ m.down, s.inserts = false := by
  decide

theorem catalogueAt_zero : catalogueAt 0 = Catalogue.empty := by
  simp [catalogueAt]

/-- No two migrations share a name. -/
theorem names_distinct : (∀ n ≤ migrations.length, pending (namesTo n) = migrations.drop n) ∧
    (∀ m ∈ migrations, migrations.find? (fun m' => decide (m'.name = m.name)) = some m) ∧
    (∀ n ≤ migrations.length, SeedGuestUser.name ∈ namesTo n ↔ 6 < n) ∧
    ∀ n < migrations.length, n ≠ 4 → ∀ m ∈ migrations[n]?, m.name ≠ GithubIdentities.name := by
  decide +kernel

section Steps

variable {m : Migration}

theorem lt_length (here : migrations[n]? = some m) : n < migrations.length :=
  (List.getElem?_eq_some_iff.mp here).1

theorem defines_up (here : migrations[n]? = some m) :
    defines m.up (catalogueAt n) = some (catalogueAt (n + 1)) :=
  (schema_steps n (lt_length here) m here).1

theorem defines_down (here : migrations[n]? = some m) :
    defines m.down (catalogueAt (n + 1)) = some (catalogueAt n) :=
  (schema_steps n (lt_length here) m here).2.1

theorem namesTo_succ (here : migrations[n]? = some m) : namesTo (n + 1) = namesTo n ++ [m.name] := by
  simp [namesTo, List.take_add_one, here]

end Steps

/-- The migrations from version `n` on, up to version `n + k`. -/
theorem defines_between (k : Nat) (le : n + k ≤ migrations.length) :
    defines (((migrations.drop n).take k).flatMap Migration.up) (catalogueAt n) =
      some (catalogueAt (n + k)) := by
  induction k with
  | zero => simp
  | succ k ih =>
    have here := List.getElem?_eq_getElem (l := migrations) (i := n + k) le
    rw [List.take_add_one, List.getElem?_drop, here, List.flatMap_append, defines_append,
      ih (Nat.le_of_succ_le le), Option.bind_some]
    simpa [Nat.add_assoc] using defines_up here

theorem widens_between (k : Nat) (below : n + k ≤ 6 ∨ 6 < n) :
    ∀ s ∈ ((migrations.drop n).take k).flatMap Migration.up, s.widens = true := by
  intro s mem
  obtain ⟨m, taken, mem⟩ := List.mem_flatMap.mp mem
  obtain ⟨i, lt, rfl⟩ := List.mem_iff_getElem.mp taken
  have here : migrations[n + i]? = some ((migrations.drop n).take k)[i] := by
    rw [← List.getElem?_drop, ← List.getElem?_eq_getElem lt, List.getElem?_take_of_lt]
    simp only [List.length_take] at lt
    omega
  simp only [List.length_take] at lt
  exact widens_up (n + i) (lt_length here) (by omega) _ here s mem

/-! ### Versions -/

/-- A database at version `n`: the first `n` migrations and no others are in effect. -/
structure Version (n : Nat) (s : Postgres) : Prop where
  le : n ≤ migrations.length
  executed : s.executed = namesTo n
  catalogue : s.database.catalogue = catalogueAt n
  fits : s.database.catalogue.Fits s.database.rows

/-- The database at version `n` that holds certain rows. -/
def migrated (n : Nat) (rows : Rows) : Postgres := ⟨⟨catalogueAt n, rows⟩, namesTo n⟩

theorem Version.eq_migrated (h : Version n s) : s = migrated n s.database.rows := by
  obtain ⟨⟨catalogue, rows⟩, executed⟩ := s
  obtain ⟨-, rfl, rfl, -⟩ := h
  rfl

theorem defines_pending (le : n ≤ migrations.length) :
    defines ((migrations.drop n).flatMap Migration.up) (catalogueAt n) =
      some (catalogueAt migrations.length) := by
  have all := defines_between (n := n) (migrations.length - n) (by omega)
  rwa [Nat.add_sub_cancel' le, List.take_of_length_le (by simp)] at all

theorem migrationRun_migrated (le : n ≤ migrations.length) :
    migrationRun env (migrated n rows) =
      (atomically env ((migrations.drop n).flatMap Migration.up) ⟨catalogueAt n, rows⟩).map
        fun database => ⟨database, namesTo migrations.length⟩ := by
  have all : namesTo n ++ (migrations.drop n).map Migration.name = namesTo migrations.length := by
    rw [namesTo, ← List.map_append, List.take_append_drop, namesTo, List.take_length]
  simp only [migrationRun, migrated, names_distinct.1 n le, all]

theorem migrationRevert_zero : migrationRevert env (migrated 0 rows) = some (migrated 0 rows) := rfl

theorem migrationRevert_migrated {m : Migration} (here : migrations[n]? = some m) :
    migrationRevert env (migrated (n + 1) rows) =
      (atomically env m.down ⟨catalogueAt (n + 1), rows⟩).map
        fun database => ⟨database, namesTo n⟩ := by
  simp only [migrationRevert, migrated, namesTo_succ here, List.getLast?_append,
    List.getLast?_singleton, Option.some_or, names_distinct.2.1 m (List.mem_of_getElem? here),
    Option.bind_some, List.dropLast_concat]

/-- Whatever happens, some number of the first migrations is in effect, and all rows fit. -/
theorem version_of_reached (reached : Reached s) : ∃ n, Version n s := by
  induction reached with
  | created => exact ⟨0, Nat.zero_le _, rfl, catalogueAt_zero.symm, fits_nil⟩
  | @ran s s' env _ ran ih =>
    obtain ⟨n, h⟩ := ih
    rw [h.eq_migrated, migrationRun_migrated h.le, Option.map_eq_some_iff] at ran
    obtain ⟨database, done, rfl⟩ := ran
    have fits : (catalogueAt n).Fits s.database.rows := h.catalogue ▸ h.fits
    have defined := (defines_of_atomically done).symm.trans (defines_pending h.le)
    exact ⟨_, Nat.le_refl _, rfl, Option.some.inj defined, atomically_fits fits done⟩
  | @reverted s s' env _ reverted ih =>
    obtain ⟨n, h⟩ := ih
    rw [h.eq_migrated] at reverted
    have fits : (catalogueAt n).Fits s.database.rows := h.catalogue ▸ h.fits
    cases n with
    | zero =>
      obtain rfl := Option.some.inj (migrationRevert_zero.symm.trans reverted)
      exact ⟨0, Nat.zero_le _, rfl, rfl, fits⟩
    | succ n =>
      have here := List.getElem?_eq_getElem (l := migrations) (i := n) h.le
      rw [migrationRevert_migrated here, Option.map_eq_some_iff] at reverted
      obtain ⟨database, done, rfl⟩ := reverted
      have defined := (defines_of_atomically done).symm.trans (defines_down here)
      exact ⟨n, Nat.le_of_succ_le h.le, rfl, Option.some.inj defined, atomically_fits fits done⟩
  | @written s rows _ fits ih =>
    obtain ⟨n, h⟩ := ih
    exact ⟨n, h.le, h.executed, h.catalogue, fits⟩

theorem fits_of_reached (reached : Reached s) :
    ∃ n ≤ migrations.length, s = migrated n s.database.rows ∧
      (catalogueAt n).Fits s.database.rows := by
  obtain ⟨n, h⟩ := version_of_reached reached
  exact ⟨n, h.le, h.eq_migrated, h.catalogue ▸ h.fits⟩

/-! ### The seed -/

/-- No row holds the value that is about to be generated. -/
def Fresh (env : Env) (rows : Rows) : Prop :=
  ∀ table, ∀ r ∈ rows table, ∀ column, r column ≠ some env.uuid

def isGuest (r : Row) : Bool := decide (r "email" = some GUEST_SENTINEL_EMAIL)

def hasGuest (rows : Rows) : Bool := (rows "users").any isGuest

/-- The row of the Guest: it has no password, and no limits of its own. -/
def guestRow (env : Env) : Row := fun column =>
  [("id", env.uuid), ("email", GUEST_SENTINEL_EMAIL), ("created_at", env.now),
    ("updated_at", env.now)].lookup column

/-- What the seed makes of the rows. -/
def seeded (env : Env) (rows : Rows) : Rows :=
  if hasGuest rows then rows else Function.update rows "users" (guestRow env :: rows "users")

/-- The table of users that the seed finds. -/
def usersTable : TableDef where
  name := "users"
  columns := [
    ⟨"id", "UUID", true, .genRandomUuid⟩,
    ⟨"email", "VARCHAR(255)", true, .null⟩,
    ⟨"password_hash", "VARCHAR(72)", false, .null⟩,
    ⟨"created_at", "TIMESTAMPTZ", true, .now⟩,
    ⟨"updated_at", "TIMESTAMPTZ", true, .now⟩,
    ⟨"monthly_link_limit", "INTEGER", false, .null⟩,
    ⟨"monthly_key_limit", "INTEGER", false, .null⟩]
  keys := [⟨"PK_users_id", ["id"]⟩, ⟨"UQ_users_email", ["email"]⟩]
  references := []

theorem table?_users : (catalogueAt 6).table? "users" = some usersTable ∧
    catalogueAt 7 = catalogueAt 6 := by
  decide +kernel

theorem newRow_users : usersTable.newRow env
    [("id", .genRandomUuid), ("email", .text GUEST_SENTINEL_EMAIL), ("password_hash", .null)] =
      guestRow env := by
  funext column
  by_cases known : column ∈ usersTable.columns.map Column.name
  · simp only [usersTable, List.map_cons, List.map_nil, List.mem_cons, List.not_mem_nil,
      or_false] at known
    rcases known with rfl | rfl | rfl | rfl | rfl | rfl | rfl <;>
      simp [TableDef.newRow, TableDef.column?, usersTable, guestRow, List.lookup_cons, Env.eval]
  · have undefined : usersTable.column? column = none := by
      simp only [TableDef.column?, List.find?_eq_none, decide_eq_true_eq]
      exact fun col mem same => known (List.mem_map.mpr ⟨col, mem, same⟩)
    simp only [usersTable, List.map_cons, List.map_nil, List.mem_cons, List.not_mem_nil, or_false,
      not_or] at known
    obtain ⟨id, email, -, createdAt, updatedAt, -, -⟩ := known
    simp [TableDef.newRow, undefined, guestRow, List.lookup_cons, beq_false_of_ne id,
      beq_false_of_ne email, beq_false_of_ne createdAt, beq_false_of_ne updatedAt]

theorem clash_id (fresh : r "id" ≠ some env.uuid) : r.clash (guestRow env) ["id"] = false := by
  have id : guestRow env "id" = some env.uuid := rfl
  simp [Row.clash, id, fresh]

theorem clash_email : r.clash (guestRow env) ["email"] = isGuest r := by
  have email : guestRow env "email" = some GUEST_SENTINEL_EMAIL := rfl
  cases given : r "email" <;> simp [Row.clash, isGuest, email, given]

theorem run_seed (fresh : Fresh env rows) :
    SEED_GUEST_USER_SQL.run env ⟨catalogueAt 6, rows⟩ = some ⟨catalogueAt 6, seeded env rows⟩ := by
  have defined : SEED_GUEST_USER_SQL.define (catalogueAt 6) = some (catalogueAt 6) := by
    have up := defines_up (n := 6) (m := SeedGuestUser) rfl
    rwa [table?_users.2, SeedGuestUser, defines_singleton] at up
  have complete : (usersTable.columns.any fun col =>
      col.notNull && (guestRow env col.name).isNone) = false := rfl
  have taken : ((rows "users").any fun r => r.clash (guestRow env) ["email"]) = hasGuest rows := by
    simp only [clash_email, hasGuest]
  have free : ((rows "users").any fun r => r.clash (guestRow env) ["id"]) = false := by
    rw [List.any_eq_false]
    exact fun r present => by simp [clash_id (fresh "users" r present "id")]
  have inserted : usersTable.insert rows (guestRow env) ["email"] = some (seeded env rows) := by
    simp only [TableDef.insert, complete]
    simp [usersTable, taken, free, seeded]
    cases hasGuest rows <;> simp
  refine run_eq_some.mpr ⟨defined, ?_⟩
  simp only [SEED_GUEST_USER_SQL, Statement.fill, table?_users.1, Option.bind_some, newRow_users]
  exact inserted

theorem fits_seeded (fresh : Fresh env rows) (fits : (catalogueAt 6).Fits rows) :
    (catalogueAt 6).Fits (seeded env rows) :=
  run_fits (d := ⟨catalogueAt 6, rows⟩) fits (run_seed fresh)

/-! ### Runs -/

/-- A run that still has the seed before it. -/
theorem atomically_of_unseeded (le : n ≤ 6) (fresh : Fresh env rows)
    (fits : (catalogueAt n).Fits rows) :
    atomically env ((migrations.drop n).flatMap Migration.up) ⟨catalogueAt n, rows⟩ =
      some ⟨catalogueAt migrations.length, seeded env rows⟩ := by
  obtain ⟨k, six⟩ := Nat.exists_eq_add_of_le le
  have length : migrations.length = 8 := rfl
  have split : migrations.drop n =
      (migrations.drop n).take k ++ [SeedGuestUser, EnablePgStatStatements] := by
    conv_lhs => rw [← List.take_append_drop k (migrations.drop n), List.drop_drop, ← six]
    rfl
  have below : n + k ≤ 6 := Nat.le_of_eq six.symm
  have defined := defines_between (n := n) k (by omega)
  rw [← six] at defined
  have ⟨fits₆, before⟩ := fits.widen_all env (widens_between k (.inl below)) defined
  have newest : defines EnablePgStatStatements.up (catalogueAt 6) =
      some (catalogueAt migrations.length) :=
    table?_users.2 ▸ defines_up (n := 7) rfl
  have after := ((fits_seeded fresh fits₆).widen_all env (widens_up 7 (by decide) (by decide) _ rfl)
    newest).2
  rw [split, List.flatMap_append, atomically_append, before, Option.bind_some]
  simp only [List.flatMap_cons, List.flatMap_nil, List.append_nil]
  rw [SeedGuestUser, List.singleton_append, atomically_cons, run_seed fresh, Option.bind_some,
    after]

theorem atomically_of_seeded (le : n ≤ migrations.length) (lt : 6 < n)
    (fits : (catalogueAt n).Fits rows) :
    atomically env ((migrations.drop n).flatMap Migration.up) ⟨catalogueAt n, rows⟩ =
      some ⟨catalogueAt migrations.length, rows⟩ :=
  (fits.widen_all env (fun s mem => widens_between (migrations.length - n) (.inr lt) s
    (by rwa [List.take_of_length_le (by simp)])) (defines_pending le)).2

/-- What a run leaves of the rows. -/
def rowsAfterRun (env : Env) (s : Postgres) : Rows :=
  if SeedGuestUser.name ∈ s.executed then s.database.rows else seeded env s.database.rows

theorem migrationRun_eq (le : n ≤ migrations.length) (fresh : Fresh env rows)
    (fits : (catalogueAt n).Fits rows) :
    migrationRun env (migrated n rows) =
      some (migrated migrations.length (rowsAfterRun env (migrated n rows))) := by
  have seedDone : SeedGuestUser.name ∈ (migrated n rows).executed ↔ 6 < n := names_distinct.2.2.1 n le
  rw [migrationRun_migrated le, rowsAfterRun]
  by_cases lt : 6 < n
  · rw [atomically_of_seeded le lt fits, if_pos (seedDone.mpr lt)]
    rfl
  · rw [atomically_of_unseeded (Nat.le_of_not_lt lt) fresh fits, if_neg (mt seedDone.mp lt)]
    rfl

theorem migrationRun_latest :
    migrationRun env (migrated migrations.length rows) = some (migrated migrations.length rows) := by
  rw [migrationRun_migrated (Nat.le_refl _), List.drop_length]
  rfl

/-! ### Reverts -/

theorem fits_succ (lt : n < migrations.length) (fits : (catalogueAt n).Fits rows) (other : n ≠ 6) :
    (catalogueAt (n + 1)).Fits rows := by
  have here := List.getElem?_eq_getElem lt
  exact (fits.widen_all ⟨"", ""⟩ (widens_up n lt other _ here) (defines_up here)).1

/-- The rows of the older schema stay as they are. -/
theorem migrationRevert_narrow (lt : n < migrations.length) (other : n ≠ 6)
    (fits : (catalogueAt n).Fits rows) :
    migrationRevert env (migrated (n + 1) rows) = some (migrated n rows) := by
  have here := List.getElem?_eq_getElem lt
  rw [migrationRevert_migrated here,
    (fits.of_narrowing env ((schema_steps n lt _ here).2.2 other) (defines_down here)).2]
  rfl

theorem fits_add (fits : (catalogueAt n).Fits rows) (k : Nat)
    (below : n + k ≤ 6 ∨ 6 < n ∧ n + k ≤ migrations.length) :
    (catalogueAt (n + k)).Fits rows := by
  induction k with
  | zero => exact fits
  | succ k ih =>
    have length : migrations.length = 8 := rfl
    exact fits_succ (n := n + k) (by omega) (ih (by omega)) (by omega)

theorem rollback_narrow (fits : (catalogueAt n).Fits rows) (k : Nat)
    (below : n + k ≤ 6 ∨ 6 < n ∧ n + k ≤ migrations.length) :
    rollback env k (migrated (n + k) rows) = some (migrated n rows) := by
  induction k with
  | zero => rfl
  | succ k ih =>
    have length : migrations.length = 8 := rfl
    have last : migrationRevert env (migrated (n + k + 1) rows) = some (migrated (n + k) rows) :=
      migrationRevert_narrow (by omega) (by omega) (fits_add fits k (by omega))
    rw [← Nat.add_assoc, rollback, last, Option.bind_some]
    exact ih (by omega)

theorem rollback_add (a b : Nat) :
    rollback env (a + b) s = (rollback env a s).bind (rollback env b) := by
  induction a generalizing s with
  | zero => simp [rollback]
  | succ a ih =>
    rw [Nat.succ_add, rollback, rollback, Option.bind_assoc]
    exact congrArg _ (funext fun _ => ih)

/-! ### The revert of the seed -/

theorem migrationRevert_seed : migrationRevert env (migrated 7 rows) =
    some (migrated 6 (deleteRows (catalogueAt 7) rows "users" isGuest)) := by
  have here : migrations[6]? = some SeedGuestUser := rfl
  have defined : (Statement.deleteWhere "users" "email" GUEST_SENTINEL_EMAIL).define
      (catalogueAt 7) = some (catalogueAt 6) :=
    defines_singleton.symm.trans (defines_down here)
  rw [migrationRevert_migrated here]
  simp [SeedGuestUser, Statement.run, defined, Statement.fill, migrated]
  rfl

theorem references_users : ∀ t ∈ (catalogueAt 7).table? "users", t.references = [] := by
  rw [table?_users.2, table?_users.1]
  exact fun t found => Option.some.inj found ▸ rfl

/-- The Guest of the seed goes again, and nothing with it. -/
theorem deleteRows_seeded (fresh : Fresh env rows) (none : hasGuest rows = false) :
    deleteRows (catalogueAt 7) (seeded env rows) "users" isGuest = rows := by
  have others : ∀ r ∈ rows "users", isGuest r = false := by simpa [hasGuest] using none
  have seeds : seeded env rows =
      Function.update rows "users" (guestRow env :: rows "users") := by simp [seeded, none]
  -- only the Guest is hit, and no row can refer to an id that was only just drawn
  have unreferenced : ∀ name t, (catalogueAt 7).table? name = some t → ∀ ref ∈ t.references,
      ref.table = "users" → ∀ target ∈ seeded env rows "users", isGuest target = true →
        ∀ r ∈ seeded env rows name, r ref.column ≠ target "id" := by
    intro name t found ref mem refers target there guest r present
    have id : target "id" = some env.uuid := by
      rw [seeds, Function.update_self] at there
      rcases List.mem_cons.mp there with rfl | old
      · rfl
      · simp [others target old] at guest
    rw [id]
    by_cases users : name = "users"
    · have root := references_users t (users ▸ found)
      simp [root] at mem
    · rw [seeds, Function.update_of_ne users] at present
      exact fresh name r present ref.column
  funext name
  rw [deleteRows_of_unreferenced unreferenced]
  by_cases users : name = "users"
  · subst users
    have kept : (rows "users").filter (fun r => !isGuest r) = rows "users" :=
      List.filter_eq_self.mpr fun r present => by simp [others r present]
    have guest : isGuest (guestRow env) = true := rfl
    simp [seeds, guest, kept]
  · simp [seeds, users]

/-- Where a user had the email before, the revert takes that user. -/
theorem length_deleteRows (some : hasGuest rows = true) :
    (deleteRows (catalogueAt 7) rows "users" isGuest "users").length < (rows "users").length := by
  obtain ⟨r, present, guest⟩ := List.any_eq_true.mp some
  exact List.length_filter_lt_length_iff_exists.mpr
    ⟨r, present, by simp [deleted_of_matches guest]⟩

/-! ### Rollbacks -/

theorem length_migrationRevert_le (reverted : migrationRevert env s = some s') (table : String) :
    (s'.database.rows table).length ≤ (s.database.rows table).length := by
  simp only [migrationRevert] at reverted
  split at reverted
  · exact Option.some.inj reverted ▸ Nat.le_refl _
  · obtain ⟨m, found, done⟩ := Option.bind_eq_some_iff.mp reverted
    obtain ⟨database, ran, rfl⟩ := Option.map_eq_some_iff.mp done
    exact length_atomically_le (inserts_down m (List.mem_of_find?_eq_some found)) ran table

theorem length_rollback_le (k : Nat) (done : rollback env k s = some s') (table : String) :
    (s'.database.rows table).length ≤ (s.database.rows table).length := by
  induction k generalizing s with
  | zero => exact Option.some.inj done ▸ Nat.le_refl _
  | succ k ih =>
    obtain ⟨mid, reverted, rest⟩ := Option.bind_eq_some_iff.mp done
    exact Nat.le_trans (ih rest) (length_migrationRevert_le reverted table)

/-- The two newest reverts, which take the seed back. -/
theorem rollback_two (fits : (catalogueAt 6).Fits rows) :
    rollback env 2 (migrated migrations.length rows) =
      some (migrated 6 (deleteRows (catalogueAt 7) rows "users" isGuest)) := by
  have fits₇ : (catalogueAt 7).Fits rows := table?_users.2 ▸ fits
  have newest : migrationRevert env (migrated migrations.length rows) = some (migrated 7 rows) :=
    migrationRevert_narrow (n := 7) (by decide) (by decide) fits₇
  simp [rollback, newest, migrationRevert_seed]

/-- The reverts as far back as the version before the seed. -/
theorem rollback_seeded (le : n ≤ 6) (fresh : Fresh env rows) (fits : (catalogueAt n).Fits rows)
    (env' : Env) :
    rollback env' (migrations.length - n) (migrated migrations.length (seeded env rows)) =
      rollback env' (6 - n)
        (migrated 6 (deleteRows (catalogueAt 7) (seeded env rows) "users" isGuest)) := by
  obtain ⟨k, six⟩ := Nat.exists_eq_add_of_le le
  have length : migrations.length = 8 := rfl
  have steps : migrations.length - n = 2 + (6 - n) := by omega
  have fits₆ : (catalogueAt 6).Fits rows := six ▸ fits_add fits k (by omega)
  rw [steps, rollback_add, rollback_two (fits_seeded fresh fits₆), Option.bind_some]

/-- No later revert brings the rows back that the revert of the seed took. -/
theorem length_rollback_lt (le : n ≤ 6) (fresh : Fresh env rows)
    (fits : (catalogueAt n).Fits rows) (env' : Env) (guest : hasGuest rows = true)
    (done : rollback env' (migrations.length - n) (migrated migrations.length (seeded env rows)) =
      some s') : (s'.database.rows "users").length < (rows "users").length := by
  rw [rollback_seeded le fresh fits] at done
  have fewer := length_rollback_le _ done "users"
  simp only [migrated, seeded, guest, if_true] at fewer
  exact Nat.lt_of_le_of_lt fewer (length_deleteRows guest)

theorem rollback_of_unseeded (le : n ≤ 6) (fresh : Fresh env rows)
    (fits : (catalogueAt n).Fits rows) (env' : Env) :
    rollback env' (migrations.length - n) (migrated migrations.length (seeded env rows)) =
      some (migrated n rows) ↔ hasGuest rows = false := by
  constructor
  · intro back
    by_contra guest
    rw [Bool.not_eq_false] at guest
    exact absurd (length_rollback_lt le fresh fits env' guest back) (Nat.lt_irrefl _)
  · intro none
    obtain ⟨k, six⟩ := Nat.exists_eq_add_of_le le
    have steps : 6 - n = k := by omega
    rw [rollback_seeded le fresh fits, deleteRows_seeded fresh none, steps, six]
    exact rollback_narrow fits k (by omega)

/-! ### Every version is met -/

theorem Reached.rolledBack (reached : Reached s) (k : Nat) (done : rollback env k s = some s') :
    Reached s' := by
  induction k generalizing s with
  | zero => exact Option.some.inj done ▸ reached
  | succ k ih =>
    obtain ⟨mid, reverted, rest⟩ := Option.bind_eq_some_iff.mp done
    exact ih (reached.reverted env reverted) rest

/-- The states that are reached are the versions with any rows that fit. -/
theorem reached_iff : Reached s ↔ ∃ n, Version n s := by
  refine ⟨version_of_reached, fun ⟨n, h⟩ => ?_⟩
  have empty : migrated 0 (fun _ => []) = ⟨Database.empty, []⟩ := by
    simp [migrated, catalogueAt_zero, namesTo, Database.empty]
  have newest : Reached (migrated migrations.length fun _ => []) := by
    have ran : migrationRun ⟨"", ""⟩ (migrated 0 fun _ => []) = _ :=
      migrationRun_eq (Nat.zero_le _) (by simp [Fresh]) fits_nil
    exact ((empty ▸ Reached.created).ran _ ran).written fits_nil
  have bare : Reached (migrated n fun _ => []) := by
    have length : migrations.length = 8 := rfl
    have le := h.le
    by_cases lt : 6 < n
    · obtain ⟨k, all⟩ := Nat.exists_eq_add_of_le h.le
      exact (all ▸ newest).rolledBack k
        (rollback_narrow fits_nil k (.inr ⟨lt, Nat.le_of_eq all.symm⟩) : rollback ⟨"", ""⟩ k _ = _)
    · obtain ⟨k, six⟩ := Nat.exists_eq_add_of_le (Nat.le_of_not_lt lt)
      have sixth : Reached (migrated 6 fun _ => []) :=
        newest.rolledBack 2 (rollback_two fits_nil : rollback ⟨"", ""⟩ 2 _ = _)
      exact (six ▸ sixth).rolledBack k
        (rollback_narrow fits_nil k (.inl (Nat.le_of_eq six.symm)) : rollback ⟨"", ""⟩ k _ = _)
  have fits : (catalogueAt n).Fits s.database.rows := h.catalogue ▸ h.fits
  rw [h.eq_migrated]
  exact bare.written fits

/-! ### Accounts without a password -/

theorem isSome_atomically_github :
    (atomically env GithubIdentities.down ⟨catalogueAt 5, rows⟩).isSome = true ↔
      ∀ r ∈ rows "users", (r "password_hash").isSome = true := by
  obtain ⟨mid, defined, drops⟩ : ∃ mid,
      ALTER_PASSWORD_HASH_NOT_NULL_SQL.define (catalogueAt 5) = some mid ∧
        defines [DROP_PROVIDER_ACCOUNTS_SQL] mid = some (catalogueAt 4) :=
    Option.bind_eq_some_iff.mp (defines_cons ▸ defines_down (n := 4) (m := GithubIdentities) rfl)
  rw [GithubIdentities, atomically_cons]
  by_cases passwords : ∀ r ∈ rows "users", (r "password_hash").isSome = true
  · have ran : ALTER_PASSWORD_HASH_NOT_NULL_SQL.run env ⟨catalogueAt 5, rows⟩ =
        some ⟨mid, rows⟩ :=
      run_eq_some.mpr ⟨defined, if_pos (List.all_eq_true.mpr passwords)⟩
    rw [ran, Option.bind_some, isSome_atomically_of_alwaysFills (by decide), drops]
    exact iff_of_true rfl passwords
  · have stopped : ALTER_PASSWORD_HASH_NOT_NULL_SQL.run env ⟨catalogueAt 5, rows⟩ = none := by
      rw [Option.eq_none_iff_forall_ne_some]
      intro d ran
      have filled := (run_eq_some.mp ran).2
      simp only [ALTER_PASSWORD_HASH_NOT_NULL_SQL, Statement.fill,
        Option.ite_none_right_eq_some, List.all_eq_true] at filled
      exact passwords filled.1
    simp [stopped, passwords]

/-! ### A user who signs in with GitHub -/

/-- What the API has written of an account without a password. -/
def githubOnly : List (String × Sql.Value) :=
  [("id", "4f1c"), ("email", "octocat@example.org"), ("created_at", "2026-01-01"),
    ("updated_at", "2026-01-01")]

def githubOnlyRows : Rows := Function.update (fun _ => []) "users" [fun c => githubOnly.lookup c]

theorem fits_githubOnly : (catalogueAt 5).Fits githubOnlyRows := by
  have known : ((catalogueAt 5).table? "users").isSome = true ∧
      ∀ t ∈ (catalogueAt 5).table? "users", (∀ v ∈ githubOnly, (t.column? v.1).isSome) ∧
        ∀ col ∈ t.columns, col.notNull = true → (githubOnly.lookup col.name).isSome := by
    decide +kernel
  obtain ⟨t, found⟩ := Option.isSome_iff_exists.mp known.1
  refine fits_nil.change "users" (fun _ _ => rfl) (fun _ other => by simp [githubOnlyRows, other]) ?_
  have row := Row.fits_lookup (known.2 t found).1 (known.2 t found).2
  simpa [found, githubOnlyRows, FitsTable] using row

theorem reached_githubOnly : Reached (migrated 5 githubOnlyRows) :=
  reached_iff.mpr ⟨5, by decide, rfl, rfl, fits_githubOnly⟩

theorem fresh_githubOnly (new : ∀ v ∈ githubOnly, v.2 ≠ env.uuid) : Fresh env githubOnlyRows := by
  intro table r present column given
  by_cases users : table = "users"
  · subst users
    obtain rfl := List.mem_singleton.mp present
    obtain ⟨_, _, same, -⟩ := List.lookup_eq_some_iff.mp given
    exact new (column, env.uuid) (by simp [same]) rfl
  · simp [githubOnlyRows, users] at present

theorem hasGuest_githubOnly : hasGuest githubOnlyRows = false := by
  simp [hasGuest, isGuest, githubOnlyRows, githubOnly, List.lookup_cons,
    GUEST_SENTINEL_EMAIL]

def nextDay : Env := ⟨"90ab", "2026-01-02"⟩

/-! ### The tool -/

/-- A run succeeds on every database there can be and leaves it at the newest schema, with all its
rows and, where the seed was pending and nobody had its email, with the Guest. Another run changes
nothing. -/
theorem migrationRun_of_reached (reached : Reached s) (fresh : Fresh env s.database.rows) :
    ∃ s', migrationRun env s = some s' ∧
      s'.database.catalogue = catalogueAt migrations.length ∧
      s'.executed = migrations.map Migration.name ∧
      s'.database.rows = rowsAfterRun env s ∧
      ∀ env', migrationRun env' s' = some s' := by
  obtain ⟨n, le, same, fits⟩ := fits_of_reached reached
  have ran := migrationRun_eq le fresh fits
  rw [← same] at ran
  exact ⟨_, ran, rfl, by simp [migrated, namesTo], rfl, fun _ => migrationRun_latest⟩

theorem migrationRun_of_reached_githubOnly :
    ∃ s', migrationRun nextDay (migrated 5 githubOnlyRows) = some s' ∧
      s'.database.rows "users" = [guestRow nextDay, fun c => githubOnly.lookup c] := by
  obtain ⟨s', ran, -, -, rows, -⟩ :=
    migrationRun_of_reached reached_githubOnly (fresh_githubOnly (by decide) : Fresh nextDay _)
  have pendingSeed : SeedGuestUser.name ∉ (migrated 5 githubOnlyRows).executed :=
    (names_distinct.2.2.1 5 (by decide)).not.mpr (by decide)
  refine ⟨s', ran, ?_⟩
  have added : seeded nextDay githubOnlyRows =
      Function.update githubOnlyRows "users" (guestRow nextDay :: githubOnlyRows "users") := by
    simp [seeded, hasGuest_githubOnly]
  rw [rows, rowsAfterRun, if_neg pendingSeed]
  exact (congrFun added "users").trans (by simp [githubOnlyRows])

/-- A run and the reverts of what it brought give back the database that it found, exactly where it
did not take over a user with the Guest's email. Where it did, the table of users loses rows. -/
theorem rollback_of_run (reached : Reached s) (fresh : Fresh env s.database.rows)
    (ran : migrationRun env s = some s') (env' : Env) :
    (rollback env' (s'.executed.length - s.executed.length) s' = some s ↔
      (SeedGuestUser.name ∉ s.executed → hasGuest s.database.rows = false)) ∧
      (SeedGuestUser.name ∉ s.executed → hasGuest s.database.rows = true →
        ∀ s'', rollback env' (s'.executed.length - s.executed.length) s' = some s'' →
          (s''.database.rows "users").length < (s.database.rows "users").length) := by
  obtain ⟨n, le, same, fits⟩ := fits_of_reached reached
  rw [same] at ran ⊢
  generalize s.database.rows = rows at *
  rw [migrationRun_eq le fresh fits] at ran
  obtain rfl := Option.some.inj ran
  have seedDone : SeedGuestUser.name ∈ (migrated n rows).executed ↔ 6 < n := names_distinct.2.2.1 n le
  have count : (migrated migrations.length (rowsAfterRun env (migrated n rows))).executed.length -
      (migrated n rows).executed.length = migrations.length - n := by
    simp [migrated, namesTo, Nat.min_eq_left le]
  rw [count, rowsAfterRun]
  by_cases done : SeedGuestUser.name ∈ (migrated n rows).executed
  · obtain ⟨k, all⟩ := Nat.exists_eq_add_of_le le
    have steps : migrations.length - n = k := by omega
    have back : rollback env' k (migrated (n + k) rows) = some (migrated n rows) :=
      rollback_narrow fits k (.inr ⟨seedDone.mp done, Nat.le_of_eq all.symm⟩)
    rw [if_pos done, steps, all]
    exact ⟨iff_of_true back fun pending => absurd done pending, fun pending => absurd done pending⟩
  · have early : n ≤ 6 := Nat.le_of_not_lt (mt seedDone.mpr done)
    have unseeded := rollback_of_unseeded early fresh fits env'
    rw [if_neg done]
    refine ⟨unseeded.trans ⟨fun none _ => none, fun none => none done⟩, ?_⟩
    exact fun _ guest _ back => length_rollback_lt early fresh fits env' guest back

theorem rollback_of_run_githubOnly :
    ∃ s', migrationRun nextDay (migrated 5 githubOnlyRows) = some s' ∧
      rollback nextDay (s'.executed.length - 5) s' = some (migrated 5 githubOnlyRows) := by
  have fresh : Fresh nextDay githubOnlyRows := fresh_githubOnly (by decide)
  have ran := migrationRun_eq (n := 5) (by decide) fresh fits_githubOnly
  exact ⟨_, ran,
    (rollback_of_run reached_githubOnly fresh ran nextDay).1.mpr fun _ => hasGuest_githubOnly⟩

/-- Each revert succeeds, but for the one of the GitHub identities: it succeeds exactly where every
user could still sign in with a password. -/
theorem migrationRevert_of_reached (reached : Reached s) (env : Env) :
    (migrationRevert env s).isSome = true ↔
      (s.executed.getLast? = some GithubIdentities.name →
        ∀ r ∈ s.database.rows "users", (r "password_hash").isSome = true) := by
  obtain ⟨n, le, same, -⟩ := fits_of_reached reached
  rw [same]
  generalize s.database.rows = rows
  cases n with
  | zero => exact iff_of_true rfl fun last => by simp [migrated, namesTo] at last
  | succ n =>
    have here := List.getElem?_eq_getElem (l := migrations) (i := n) le
    rw [migrationRevert_migrated here, Option.isSome_map]
    by_cases github : n = 4
    · subst github
      have last : (namesTo 5).getLast? = some GithubIdentities.name := rfl
      exact isSome_atomically_github.trans ⟨fun passwords _ => passwords, fun h => h last⟩
    · rw [isSome_atomically_of_alwaysFills (alwaysFills_down n le github _ here), defines_down here]
      refine iff_of_true rfl fun last => absurd ?_ (names_distinct.2.2.2 n le github _ here)
      simpa [migrated, namesTo_succ here] using last

theorem migrationRevert_of_reached_githubOnly :
    ¬ (migrationRevert nextDay (migrated 5 githubOnlyRows)).isSome = true := by
  rw [migrationRevert_of_reached reached_githubOnly nextDay]
  intro passwords
  have last : (migrated 5 githubOnlyRows).executed.getLast? = some GithubIdentities.name := rfl
  have password := passwords last (fun c => githubOnly.lookup c) (List.mem_singleton_self _)
  simp [githubOnly, List.lookup_cons] at password

end Mikrouli.Migrations
