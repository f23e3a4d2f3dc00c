import CodeGraph.NodeId

/-!
# Failures

Why the graph or the catalog of databases refuses an operation.  Each failure has a text
for people and a code for programs.
-/

namespace CodeGraph

/-- Why an operation was refused. -/
inductive Failure where
  | nodeNotFound (id : NodeId)
  | io
  | serialization
  | invalidFormat (text : String)
  | databaseExists (name : String)
  | databaseNotFound (name : String)
  | databaseInUse (name : String)
  | noDatabaseSelected
  | readOnlyMode
  | invalidDatabaseName (text : String)
  | snapshotNotFound (version : Nat)
deriving DecidableEq

namespace Failure

/-- The text of a failure. -/
def message : Failure → String
  | nodeNotFound id => s!"Node not found: {id}"
  | io => "IO error"
  | serialization => "Serialization error"
  | invalidFormat text => s!"Invalid file format: {text}"
  | databaseExists name => s!"Database '{name}' already exists"
  | databaseNotFound name =>
    s!"Database '{name}' not found. Use listDatabases to see available databases, or createDatabase first"
  | databaseInUse name => s!"Database '{name}' is in use and cannot be dropped"
  | noDatabaseSelected => "No database selected. Use openDatabase first."
  | readOnlyMode =>
    "Operation not allowed in read-only mode. Reopen the database with mode \"rw\" to write"
  | invalidDatabaseName text => s!"Invalid database name: {text}"
  | snapshotNotFound version =>
    s!"Snapshot {version} not found. Use listSnapshots to see available versions"

/-- The code of a failure. -/
def code : Failure → String
  | databaseExists _ => "DATABASE_EXISTS"
  | databaseNotFound _ => "DATABASE_NOT_FOUND"
  | databaseInUse _ => "DATABASE_IN_USE"
  | noDatabaseSelected => "NO_DATABASE_SELECTED"
  | readOnlyMode => "READ_ONLY_MODE"
  | invalidDatabaseName _ => "INVALID_DATABASE_NAME"
  | snapshotNotFound _ => "SNAPSHOT_NOT_FOUND"
  | nodeNotFound _ | io | serialization | invalidFormat _ => "INTERNAL_ERROR"

end Failure

end CodeGraph
