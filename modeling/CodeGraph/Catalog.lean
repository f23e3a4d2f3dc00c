import CodeGraph.Graph.Persistence

/-!
# The catalog of databases

A catalog registers databases by name.  A database is a graph with a name and a count of
the sessions that have it open; it is reached by a handle, which stays good even when the
name has gone to another database meanwhile.

Persistent databases lie in the base directory, each in a directory named after it, and
are found there again after a restart.  Ephemeral databases live only as long as a
session has them open.
-/

namespace CodeGraph

open Std (ExtTreeMap)

/-- A database. -/
structure Database where
  name : String
  graph : Graph
  ephemeral : Bool
  connections : Nat

/-- Stands for a database, whatever is registered under its name. -/
abbrev Handle := Nat

/-- The databases of a server, and the disk on which they lie. -/
structure Catalog where
  base : Path
  disk : Disk
  registered : ExtTreeMap String Handle
  databases : ExtTreeMap Handle Database
  nextHandle : Handle

/-- The name of the database that old clients are attached to. -/
def defaultDatabase : String := "default"

namespace Catalog

/-- A catalog without databases. -/
def empty (base : Path) (disk : Disk) : Catalog := ⟨base, disk, ∅, ∅, 0⟩

/-- The database of a handle. -/
def database? (c : Catalog) (handle : Handle) : Option Database :=
  c.databases[handle]?

/-- Changes the database of a handle. -/
def modify (c : Catalog) (handle : Handle) (f : Database → Database) : Catalog :=
  { c with databases := c.databases.modify handle f }

/-- Whether a name is registered. -/
def isRegistered (c : Catalog) (name : String) : Bool :=
  c.registered.contains name

/-- Registers a graph under a name, with no session using it. -/
def register (c : Catalog) (name : String) (graph : Graph) (ephemeral : Bool) :
    Handle × Catalog :=
  (c.nextHandle, { c with
    registered := c.registered.insert name c.nextHandle
    databases := c.databases.insert c.nextHandle ⟨name, graph, ephemeral, 0⟩
    nextHandle := c.nextHandle + 1 })

/-- Where a persistent database of a name lies. -/
def location (c : Catalog) (name : String) : Path :=
  c.base.join (name ++ ".rfdb")

/-! ### Names -/

/-- Whether a character may occur in the name of a database. -/
def isNameChar (c : Char) : Bool :=
  c.isAlphanum || c == '_' || c == '-'

/-- Names have from 1 to 128 characters, which are ASCII letters and digits, `_` and
`-`. -/
def checkName (name : String) : Except Failure Unit :=
  if name.isEmpty || 128 < name.utf8ByteSize then
    .error (.invalidDatabaseName "Name must be 1-128 characters")
  else if name.toList.all isNameChar then .ok ()
  else .error (.invalidDatabaseName "Name can only contain a-z, A-Z, 0-9, _, -")

/-! ### Creating and finding -/

/-- Creates a database under a name that is not registered. -/
def createDatabase (c : Catalog) (name : String) (ephemeral : Bool) :
    Except Failure Unit × Catalog :=
  match checkName name with
  | .error failure => (.error failure, c)
  | .ok () =>
    if c.isRegistered name then (.error (.databaseExists name), c)
    else if ephemeral then (.ok (), (c.register name .ephemeral true).2)
    else
      let (result, disk) := Graph.loadOrCreate c.disk (c.location name)
      let c := { c with disk := disk }
      match result with
      | .ok graph => (.ok (), (c.register name graph false).2)
      | .error failure => (.error failure, c)

/-- Finds the database of a name: the registered one, or one that is on disk. -/
def getDatabase (c : Catalog) (name : String) : Except Failure Handle × Catalog :=
  match c.registered[name]? with
  | some handle => (.ok handle, c)
  | none =>
    match checkName name with
    | .error _ => (.error (.databaseNotFound name), c)
    | .ok () =>
      if Graph.hasImage c.disk (c.location name) then
        match Graph.load c.disk (c.location name) with
        | .ok graph =>
          let (handle, c) := c.register name graph false
          (.ok handle, c)
        | .error failure => (.error failure, c)
      else (.error (.databaseNotFound name), c)

/-- Registers the default database, which lies at a path of its own. -/
def createDefault (c : Catalog) (path : Path) : Except Failure Unit × Catalog :=
  let (result, disk) := Graph.loadOrCreate c.disk path
  let c := { c with disk := disk }
  match result with
  | .ok graph => (.ok (), (c.register defaultDatabase graph false).2)
  | .error failure => (.error failure, c)

/-! ### Sessions coming and going -/

/-- Counts one more session. -/
def attach (c : Catalog) (handle : Handle) : Catalog :=
  c.modify handle fun db => { db with connections := db.connections + 1 }

/-- Counts one session less. -/
def detach (c : Catalog) (handle : Handle) : Catalog :=
  c.modify handle fun db => { db with connections := db.connections - 1 }

/-- The database registered under a name. -/
def registered? (c : Catalog) (name : String) : Option Database :=
  c.registered[name]?.bind c.database?

/-- Removes the registration of an ephemeral database that no session has open. -/
def cleanUp (c : Catalog) (name : String) : Catalog :=
  match c.registered? name with
  | some db =>
    if db.ephemeral && db.connections == 0 then
      { c with registered := c.registered.erase name }
    else c
  | none => c

/-! ### Dropping -/

/-- Removes the files of a database: whether that went well, and the disk. -/
def removeFiles (c : Catalog) (db : Database) : Bool × Disk :=
  match db.ephemeral, db.graph.location with
  | false, some location =>
    if c.disk.contains location then c.disk.removeDirectory location else (true, c.disk)
  | _, _ => (true, c.disk)

/-- Drops a database that no session has open, with its files.  It stays registered if they
cannot be removed. -/
def dropDatabase (c : Catalog) (name : String) : Except Failure Unit × Catalog :=
  match c.registered? name with
  | none => (.error (.databaseNotFound name), c)
  | some db =>
    if 0 < db.connections then (.error (.databaseInUse name), c)
    else
      match c.removeFiles db with
      | (true, disk) => (.ok (), { c with disk := disk, registered := c.registered.erase name })
      | (false, disk) => (.error .io, { c with disk := disk })

/-! ### All databases -/

/-- The registered databases by name. -/
def registeredDatabases (c : Catalog) : List (Handle × Database) :=
  c.registered.toList.filterMap fun (_, handle) =>
    (c.database? handle).map (handle, ·)

/-- Flushes one database; whether that failed is added to a count. -/
def flushOne (state : Nat × Catalog) (handle : Handle) : Nat × Catalog :=
  match state.2.database? handle with
  | none => state
  | some db =>
    let (result, disk) := db.graph.flush state.2.disk
    let c := { state.2 with disk := disk }
    match result with
    | .ok graph => (state.1, c.modify handle fun db => { db with graph := graph })
    | .error _ => (state.1 + 1, c)

/-- Flushes all registered databases and counts those that could not be flushed. -/
def flushAll (c : Catalog) : Nat × Catalog :=
  (c.registered.toList.map Prod.snd).foldl flushOne (0, c)

end Catalog

end CodeGraph
