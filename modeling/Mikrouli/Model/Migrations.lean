import Mikrouli.Lib.SqlRows
import Mikrouli.Model.Data

/-! `migrations/*.ts`, and the two commands of the migration tool that run them: `migration:run`,
which the API also does at its start, and `migration:revert`. -/

namespace Mikrouli.Migrations

open Sql

/-! ### The statements -/

def userReference (name : String) : Reference := ⟨name, "user_id", "users"⟩

def CREATE_USERS_SQL : Statement := .createTable {
  name := "users"
  columns := [
    ⟨"id", "UUID", true, .genRandomUuid⟩,
    ⟨"email", "VARCHAR(255)", true, .null⟩,
    ⟨"password_hash", "VARCHAR(72)", true, .null⟩,
    ⟨"created_at", "TIMESTAMPTZ", true, .now⟩,
    ⟨"updated_at", "TIMESTAMPTZ", true, .now⟩]
  keys := [⟨"PK_users_id", ["id"]⟩, ⟨"UQ_users_email", ["email"]⟩]
  references := [] }

def DROP_USERS_SQL : Statement := .dropTable "users"

def CREATE_API_KEYS_SQL : Statement := .createTable {
  name := "api_keys"
  columns := [
    ⟨"id", "UUID", true, .genRandomUuid⟩,
    ⟨"user_id", "UUID", true, .null⟩,
    ⟨"label", "VARCHAR(64)", true, .null⟩,
    ⟨"key_hash", "VARCHAR(72)", true, .null⟩,
    ⟨"key_prefix", "CHAR(8)", true, .null⟩,
    ⟨"created_at", "TIMESTAMPTZ", true, .now⟩,
    ⟨"last_used_at", "TIMESTAMP", false, .null⟩,
    ⟨"revoked_at", "TIMESTAMP", false, .null⟩]
  keys := [⟨"PK_api_keys_id", ["id"]⟩]
  references := [userReference "FK_api_keys_user"] }

def CREATE_INDEX_PREFIX_SQL : Statement :=
  .createIndex ⟨"IDX_api_keys_key_prefix", "api_keys", ["key_prefix"], none⟩

def CREATE_INDEX_USER_REVOKED_SQL : Statement :=
  .createIndex ⟨"IDX_api_keys_user_revoked", "api_keys", ["user_id", "revoked_at"], none⟩

def DROP_TABLE_SQL : Statement := .dropTableIfExists "api_keys"
def DROP_INDEX_PREFIX_SQL : Statement := .dropIndexIfExists "IDX_api_keys_key_prefix"
def DROP_INDEX_USER_REVOKED_SQL : Statement := .dropIndexIfExists "IDX_api_keys_user_revoked"

def CREATE_LINKS_SQL : Statement := .createTable {
  name := "links"
  columns := [
    ⟨"short_url", "CHAR(6)", true, .null⟩,
    ⟨"original_url", "VARCHAR(8192)", true, .null⟩,
    ⟨"user_id", "UUID", true, .null⟩,
    ⟨"created_at", "TIMESTAMP", true, .now⟩,
    ⟨"expires_at", "TIMESTAMP", false, .null⟩]
  keys := [⟨"PK_links_short_url", ["short_url"]⟩]
  references := [userReference "FK_links_user"] }

def CREATE_LINKS_EXPIRES_INDEX_SQL : Statement :=
  .createIndex ⟨"IDX_links_expires_at", "links", ["expires_at"], none⟩

def CREATE_OUTBOX_SQL : Statement := .createTable {
  name := "outbox"
  columns := [
    ⟨"id", "UUID", true, .genRandomUuid⟩,
    ⟨"aggregate_type", "VARCHAR", true, .null⟩,
    ⟨"payload", "JSONB", true, .null⟩,
    ⟨"created_at", "TIMESTAMP", true, .now⟩,
    ⟨"processed_at", "TIMESTAMP", false, .null⟩]
  keys := [⟨"PK_outbox_id", ["id"]⟩]
  references := [] }

def CREATE_OUTBOX_PENDING_INDEX_SQL : Statement :=
  .createIndex ⟨"IDX_outbox_pending", "outbox", ["processed_at"], some "processed_at IS NULL"⟩

def DROP_LINKS_SQL : Statement := .dropTableIfExists "links"
def DROP_OUTBOX_SQL : Statement := .dropTableIfExists "outbox"
def DROP_LINKS_EXPIRES_INDEX_SQL : Statement := .dropIndexIfExists "IDX_links_expires_at"
def DROP_OUTBOX_PENDING_INDEX_SQL : Statement := .dropIndexIfExists "IDX_outbox_pending"

def CREATE_PROVIDER_ACCOUNTS_SQL : Statement := .createTable {
  name := "provider_accounts"
  columns := [
    ⟨"id", "UUID", true, .genRandomUuid⟩,
    ⟨"provider", "VARCHAR(32)", true, .null⟩,
    ⟨"provider_user_id", "VARCHAR(255)", true, .null⟩,
    ⟨"user_id", "UUID", true, .null⟩,
    ⟨"created_at", "TIMESTAMPTZ", true, .now⟩,
    ⟨"updated_at", "TIMESTAMPTZ", true, .now⟩]
  keys := [⟨"PK_provider_accounts_id", ["id"]⟩,
    ⟨"UQ_provider_accounts_identity", ["provider", "provider_user_id"]⟩,
    ⟨"UQ_provider_accounts_user", ["provider", "user_id"]⟩]
  references := [userReference "FK_provider_accounts_user"] }

def ALTER_PASSWORD_HASH_NULLABLE_SQL : Statement := .dropNotNull "users" "password_hash"
def ALTER_PASSWORD_HASH_NOT_NULL_SQL : Statement := .setNotNull "users" "password_hash"
def DROP_PROVIDER_ACCOUNTS_SQL : Statement := .dropTableIfExists "provider_accounts"

def ADD_MONTHLY_LIMIT_COLUMNS_SQL : Statement := .addColumns "users" [
  ⟨"monthly_link_limit", "INTEGER", false, .null⟩,
  ⟨"monthly_key_limit", "INTEGER", false, .null⟩]

def DROP_MONTHLY_LIMIT_COLUMNS_SQL : Statement :=
  .dropColumns "users" ["monthly_link_limit", "monthly_key_limit"]

def SEED_GUEST_USER_SQL : Statement := .insertOrIgnore "users"
  [("id", .genRandomUuid), ("email", .text GUEST_SENTINEL_EMAIL), ("password_hash", .null)]
  ["email"]

/-! ### The migrations -/

structure Migration where
  name : String
  up : List Statement
  down : List Statement
  deriving DecidableEq, Repr

/-- Introduces no schema. -/
def InitSchema : Migration := ⟨"InitSchema1700000000000", [], []⟩

def CreateUsers : Migration :=
  ⟨"CreateUsers1700000000001", [CREATE_USERS_SQL], [DROP_USERS_SQL]⟩

def CreateApiKeys : Migration where
  name := "CreateApiKeys1700000000002"
  up := [CREATE_API_KEYS_SQL, CREATE_INDEX_PREFIX_SQL, CREATE_INDEX_USER_REVOKED_SQL]
  down := [DROP_INDEX_USER_REVOKED_SQL, DROP_INDEX_PREFIX_SQL, DROP_TABLE_SQL]

def CreateLinksAndOutbox : Migration where
  name := "CreateLinksAndOutbox1700000000003"
  up := [CREATE_LINKS_SQL, CREATE_LINKS_EXPIRES_INDEX_SQL, CREATE_OUTBOX_SQL,
    CREATE_OUTBOX_PENDING_INDEX_SQL]
  down := [DROP_LINKS_EXPIRES_INDEX_SQL, DROP_LINKS_SQL, DROP_OUTBOX_PENDING_INDEX_SQL,
    DROP_OUTBOX_SQL]

def GithubIdentities : Migration where
  name := "GithubIdentities1700000000004"
  up := [CREATE_PROVIDER_ACCOUNTS_SQL, ALTER_PASSWORD_HASH_NULLABLE_SQL]
  -- a user without a password stops the first statement, and so the table is not dropped
  down := [ALTER_PASSWORD_HASH_NOT_NULL_SQL, DROP_PROVIDER_ACCOUNTS_SQL]

def AddUserMonthlyLimits : Migration :=
  ⟨"AddUserMonthlyLimits1700000000005", [ADD_MONTHLY_LIMIT_COLUMNS_SQL],
    [DROP_MONTHLY_LIMIT_COLUMNS_SQL]⟩

def SeedGuestUser : Migration where
  name := "SeedGuestUser1700000000006"
  up := [SEED_GUEST_USER_SQL]
  down := [.deleteWhere "users" "email" GUEST_SENTINEL_EMAIL]

def EnablePgStatStatements : Migration where
  name := "EnablePgStatStatements1700000000007"
  up := [.createExtensionIfNotExists "pg_stat_statements"]
  down := [.dropExtensionIfExists "pg_stat_statements"]

/-- In the order of their timestamps. -/
def migrations : List Migration :=
  [InitSchema, CreateUsers, CreateApiKeys, CreateLinksAndOutbox, GithubIdentities,
    AddUserMonthlyLimits, SeedGuestUser, EnablePgStatStatements]

/-- The schema after the first `n` migrations. -/
@[irreducible] def catalogueAt (n : Nat) : Catalogue :=
  (defines ((migrations.take n).flatMap Migration.up) Catalogue.empty).getD Catalogue.empty

/-- The names of the first `n` migrations. -/
def namesTo (n : Nat) : List String := (migrations.take n).map Migration.name

/-! ### The tool -/

/-- A database with its table `typeorm_migrations`, oldest first. -/
structure Postgres where
  database : Database
  executed : List String

def pending (executed : List String) : List Migration :=
  migrations.filter fun m => decide (m.name ∉ executed)

/-- `migration:run`: all pending migrations in one transaction. -/
def migrationRun (env : Env) (s : Postgres) : Option Postgres :=
  let todo := pending s.executed
  (atomically env (todo.flatMap Migration.up) s.database).map fun database =>
    ⟨database, s.executed ++ todo.map Migration.name⟩

/-- `migration:revert`: the newest migration, in a transaction. With none there is nothing to do. -/
def migrationRevert (env : Env) (s : Postgres) : Option Postgres :=
  match s.executed.getLast? with
  | none => some s
  | some name =>
    (migrations.find? fun m => decide (m.name = name)).bind fun m =>
      (atomically env m.down s.database).map fun database => ⟨database, s.executed.dropLast⟩

/-- The reverts of a rollback, one after the other. -/
def rollback (env : Env) : Nat → Postgres → Option Postgres
  | 0, s => some s
  | n + 1, s => (migrationRevert env s).bind (rollback env n)

/-- What becomes of a database: the tool runs, and in between the API writes rows that fit. -/
inductive Reached : Postgres → Prop where
  | created : Reached ⟨Database.empty, []⟩
  | ran {s s' : Postgres} (env : Env) : Reached s → migrationRun env s = some s' → Reached s'
  | reverted {s s' : Postgres} (env : Env) : Reached s → migrationRevert env s = some s' → Reached s'
  | written {s : Postgres} {rows : Rows} : Reached s → s.database.catalogue.Fits rows →
    Reached ⟨⟨s.database.catalogue, rows⟩, s.executed⟩

end Mikrouli.Migrations
