import SqlFerry.Restore.Options

/-!
# Options of a backup

What a backup holds and how it is written, and reading the options from a record.
-/

namespace SqlFerry

open Value

structure BackupOptions where
  forceStrategy : Option String := none
  compress : Bool := false
  includeSchema : Bool := true
  includeData : Bool := true
  /-- The tables to write, if not all. -/
  tables : Option (List String) := none
  excludeTables : List String := []
  /-- Whether tables are dropped before they are made. -/
  dropExisting : Bool := true
  /-- How many rows come into one statement. -/
  batchSize : Nat := 500
  /-- The dialect that the backup is to be converted to when it is restored. -/
  targetDialect : Option String := none
  /-- How many seconds a tool may run, if not as long as usual. -/
  timeout : Option Float := none
  deriving Repr

namespace BackupOptions

private def fieldNames : List String :=
  ["force_strategy", "compress", "include_schema", "include_data", "tables", "exclude_tables",
   "drop_existing", "batch_size", "target_dialect", "timeout", "progress_callback"]

def ofValue (v : Value) : Checked BackupOptions :=
  let read := BackupOptions.mk <$> v.optional "force_strategy" readText <*>
    v.withDefault "compress" false readBool <*> v.withDefault "include_schema" true readBool <*>
    v.withDefault "include_data" true readBool <*> v.optional "tables" (readList readText) <*>
    v.withDefault "exclude_tables" [] (readList readText) <*>
    v.withDefault "drop_existing" true readBool <*>
    v.withDefault "batch_size" 500 (readAtLeast 1) <*> v.optional "target_dialect" readText <*>
    v.withUnset "timeout" readSeconds
  v.onlyFields fieldNames (v.withoutCallback read)

def target (o : BackupOptions) : Except Fault (Option Dialect) :=
  match o.targetDialect with
  | none | some "" => .ok none
  | some name => (Dialect.named name).map some

def needsSql (o : BackupOptions) : Bool :=
  !(o.tables.getD []).isEmpty || !o.excludeTables.isEmpty ||
    !(o.targetDialect.getD "").isEmpty

end BackupOptions

end SqlFerry
