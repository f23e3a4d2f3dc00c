import Mathlib
import CodeGraph.Proofs.Path
import CodeGraph.Proofs.Graph.Persistence
import CodeGraph.Proofs.Server.Databases
import CodeGraph.Proofs.Server.Isolation

/-!
# Where databases lie

Persistent databases lie in the base directory under their names, and names are such that
different ones never lead to the same place.  The exception is the default database, whose
directory is given when the server starts.  `Population.directories` tells what this means for
every run: two persistent databases share a directory when one of them is the default database
in the directory it was given, and the name of the other one leads there too; and not else.

That this happens is shown by `Population.two_databases_in_one_directory`.
-/

namespace CodeGraph

open Std (ExtTreeMap)

/-! ### Names and their places -/

namespace Catalog

/-- What a name of a database is called on the disk is one step. -/
lemma fileName_of_checkName {name : String} (h : checkName name = .ok ()) :
    '/' ∉ (name ++ ".rfdb").toList ∧
      Path.Step.ofPart? (name ++ ".rfdb") = some (.into (name ++ ".rfdb")) ∧
      (name ++ ".rfdb").utf8ByteSize ≤ Disk.maxName := by
  unfold checkName at h
  split at h
  · simp at h
  · next hsize =>
    split at h
    · next hchars =>
      refine ⟨?_, ?_, ?_⟩
      · rw [String.toList_append, List.mem_append, not_or]
        refine ⟨fun hslash => ?_, by decide⟩
        have hchar : isNameChar '/' = true := List.all_eq_true.1 hchars '/' hslash
        exact absurd hchar (by decide)
      · have hlength : (name ++ ".rfdb").length = name.length + 5 := by
          rw [String.length_append]
          rfl
        have hlong : ∀ {short : String}, short.length < 5 → name ++ ".rfdb" ≠ short := by
          rintro short hshort rfl
          omega
        have hempty : ¬ (name ++ ".rfdb").isEmpty = true := by
          rw [String.isEmpty_iff]
          exact hlong (by decide)
        have hdot : name ++ ".rfdb" ≠ "." := hlong (by decide)
        have hdots : name ++ ".rfdb" ≠ ".." := hlong (by decide)
        unfold Path.Step.ofPart?
        rw [if_neg hempty, if_neg (by simpa using hdot), if_neg (by simpa using hdots)]
      · have hsuffix : ".rfdb".utf8ByteSize = 5 := rfl
        rw [Bool.or_eq_true, decide_eq_true_eq, not_or] at hsize
        rw [String.utf8ByteSize_append, hsuffix]
        have hbound : Disk.maxName = 255 := rfl
        omega
    · simp at h

/-- Different names never lead to the same place. -/
lemma name_eq_of_sameTarget {base : Path} {name name' : String} (h : checkName name = .ok ())
    (h' : checkName name' = .ok ())
    (hsame : (base.join (name ++ ".rfdb")).SameTarget (base.join (name' ++ ".rfdb"))) :
    name = name' := by
  obtain ⟨hslash, hstep, hshort⟩ := fileName_of_checkName h
  obtain ⟨hslash', hstep', hshort'⟩ := fileName_of_checkName h'
  obtain ⟨place, hplace, hplace'⟩ := hsame
  rw [Path.target?_join base hslash hstep hshort] at hplace
  rw [Path.target?_join base hslash' hstep' hshort'] at hplace'
  obtain ⟨above, habove, rfl⟩ := Option.map_eq_some_iff.1 hplace
  obtain ⟨above', habove', heq⟩ := Option.map_eq_some_iff.1 hplace'
  have hlast : name' ++ ".rfdb" = name ++ ".rfdb" := by
    simpa using congrArg List.getLast? heq
  exact (String.append_left_inj _).1 hlast.symm

/-- A persistent database has a name that may be given, and lies in the base directory under
it; the default database may lie at a path of its own. -/
def Housed (base path : Path) (db : Database) : Prop :=
  checkName db.name = .ok () ∧ (db.ephemeral = false →
    db.graph.location = some (base.join (db.name ++ ".rfdb")) ∨
      db.name = defaultDatabase ∧ db.graph.location = some path)

lemma invariant_housed (base path : Path) : DatabaseInvariant base (Housed base path) where
  made hname _ hlocation := by
    refine ⟨hname, fun hpersistent => .inl ?_⟩
    obtain rfl := hpersistent
    exact hlocation
  kept {db db'} h hname hephemeral hfollows := by
    obtain ⟨hvalid, hhoused⟩ := h
    unfold Housed
    rw [hname, hephemeral, hfollows.location_eq]
    exact ⟨hvalid, hhoused⟩

end Catalog

namespace Population

open Catalog

/-- A persistent database is registered under a name and lies at a path. -/
def LiesAt (p : Population) (name : String) (location : Path) : Prop :=
  ∃ handle db, p.server.catalog.registered[name]? = some handle ∧
    p.server.catalog.database? handle = some db ∧ db.ephemeral = false ∧
    db.graph.location = some location

/-- After every run of a server that began with a default database at some path, each
registered persistent database lies at a path.  Two of them have the same directory exactly
when one is the default database, which lies at its own path still, and that path leads to
where the other one is called by its name in the base directory.  So no two have the same
directory when that path leads to no directory that another name would get. -/
theorem directories {server : Server} {base path : Path} {disk : Disk}
    (hstart : server.catalog = ((Catalog.empty base disk).createDefault path).2)
    (events : List Event) {p : Population} (hrun : p = events.foldl step ⟨server, []⟩) :
    (∀ (name : String) (handle : Handle) (db : Database),
      p.server.catalog.registered[name]? = some handle →
      p.server.catalog.database? handle = some db → db.ephemeral = false →
      ∃ location, db.graph.location = some location) ∧
    (∀ name name' location location', p.LiesAt name location → p.LiesAt name' location' →
      name ≠ name' → (location.SameTarget location' ↔
        (name = defaultDatabase ∧ location = path ∧
          path.SameTarget (base.join (name' ++ ".rfdb"))) ∨
        (name' = defaultDatabase ∧ location' = path ∧
          path.SameTarget (base.join (name ++ ".rfdb"))))) ∧
    ((∀ name, checkName name = .ok () → name ≠ defaultDatabase →
        ¬ path.SameTarget (base.join (name ++ ".rfdb"))) →
      ∀ name name' location location', p.LiesAt name location → p.LiesAt name' location' →
        name ≠ name' → ¬ location.SameTarget location') := by
  have hreach : Reachable p := by
    rw [hrun]
    exact (Reachable.startDefault hstart).steps events
  have hall : p.server.catalog.AllHave base (Housed base path) := by
    have hdefault : server.catalog.AllHave base (Housed base path) := by
      rw [hstart]
      have hvalid : checkName defaultDatabase = .ok () := by decide
      refine DatabaseInvariant.createDefault base disk path fun graph _ hlocation => ?_
      exact ⟨hvalid, fun _ => .inr ⟨rfl, hlocation⟩⟩
    rw [hrun]
    exact (invariant_housed base path).run (p := ⟨server, []⟩) hdefault events
  -- A registered persistent database lies where its name leads, or it is the default one.
  have hlies : ∀ {name location}, p.LiesAt name location → checkName name = .ok () ∧
      (location = base.join (name ++ ".rfdb") ∨ name = defaultDatabase ∧ location = path) := by
    rintro name location ⟨handle, db, hname, hdb, hpersistent, hlocation⟩
    obtain ⟨hvalid, hhoused⟩ := hall.database hdb
    rw [hreach.balanced.name_eq hname hdb, hlocation] at hhoused
    rw [hreach.balanced.name_eq hname hdb] at hvalid
    refine ⟨hvalid, ?_⟩
    rcases hhoused hpersistent with hbase | ⟨hdefault, hown⟩
    · exact .inl (Option.some.inj hbase)
    · exact .inr ⟨hdefault, Option.some.inj hown⟩
  have hiff : ∀ name name' location location', p.LiesAt name location →
      p.LiesAt name' location' → name ≠ name' → (location.SameTarget location' ↔
        (name = defaultDatabase ∧ location = path ∧
          path.SameTarget (base.join (name' ++ ".rfdb"))) ∨
        (name' = defaultDatabase ∧ location' = path ∧
          path.SameTarget (base.join (name ++ ".rfdb")))) := by
    intro name name' location location' h h' hne
    obtain ⟨hvalid, hplace⟩ := hlies h
    obtain ⟨hvalid', hplace'⟩ := hlies h'
    constructor
    · intro hsame
      rcases hplace with rfl | ⟨hdefault, rfl⟩
      · rcases hplace' with rfl | ⟨hdefault', rfl⟩
        · exact absurd (name_eq_of_sameTarget hvalid hvalid' hsame) hne
        · exact .inr ⟨hdefault', rfl, hsame.symm⟩
      · rcases hplace' with rfl | ⟨hdefault', -⟩
        · exact .inl ⟨hdefault, rfl, hsame⟩
        · exact absurd (hdefault.trans hdefault'.symm) hne
    · rintro (⟨rfl, rfl, hsame⟩ | ⟨rfl, rfl, hsame⟩)
      · rcases hplace' with rfl | ⟨hdefault', -⟩
        · exact hsame
        · exact absurd hdefault'.symm hne
      · rcases hplace with rfl | ⟨hdefault, -⟩
        · exact hsame.symm
        · exact absurd hdefault hne
  refine ⟨?_, hiff, ?_⟩
  · intro name handle db hname hdb hpersistent
    obtain ⟨-, hhoused⟩ := hall.database hdb
    rcases hhoused hpersistent with hbase | ⟨-, hown⟩
    · exact ⟨_, hbase⟩
    · exact ⟨_, hown⟩
  · intro hfree name name' location location' h h' hne hsame
    rcases (hiff name name' location location' h h' hne).1 hsame with
      ⟨hdefault, -, hcollides⟩ | ⟨hdefault, -, hcollides⟩
    · exact hfree name' (hlies h').1 (fun heq => hne (hdefault.trans heq.symm)) hcollides
    · exact hfree name (hlies h).1 (fun heq => hne (heq.trans hdefault.symm)) hcollides

/-! ### The default database under another name -/

/-- The disk on which nothing is but the image of an empty graph, in `main.rfdb`. -/
def mainDisk : Disk :=
  ⟨((∅ : ExtTreeMap (List String) DiskEntry).insert ["main.rfdb"] .directory).insert
    ["main.rfdb", "graph.bin"] (.file (Image.encode ⟨[], [], []⟩))⟩

/-- The graph in `main.rfdb`. -/
def mainGraph : Graph := .ofImage ⟨"main.rfdb"⟩ ⟨[], [], []⟩

lemma read?_main : mainDisk.read? ((Path.mk "main.rfdb").join Graph.imageName)
    = some (Image.encode ⟨[], [], []⟩) := by
  have himage : (Path.mk "main.rfdb").join Graph.imageName = ⟨"main.rfdb/graph.bin"⟩ := by cbv
  have husable : (Path.mk "main.rfdb/graph.bin").isUsable = true := by cbv
  have hsteps : (Path.mk "main.rfdb/graph.bin").steps = [.into "main.rfdb", .into "graph.bin"] := by
    unfold Path.steps Path.parts
    rw [splitOn_slash]
    decide +kernel
  have hplace : mainDisk.place? ⟨"main.rfdb/graph.bin"⟩ = some ["main.rfdb", "graph.bin"] := by
    unfold Disk.place?
    rw [if_pos husable, hsteps]
    decide +kernel
  rw [himage, Disk.read?_eq_some_iff]
  exact ⟨by decide +kernel, _, hplace, by decide +kernel⟩

lemma load_main : Graph.load mainDisk ⟨"main.rfdb"⟩ = .ok mainGraph := by
  have hdecode : Image.decode? (Image.encode ⟨[], [], []⟩) = some ⟨[], [], []⟩ :=
    Image.decode?_encode (by decide +kernel)
  unfold Graph.load
  rw [Graph.hasImage, Disk.contains_of_read? read?_main, if_pos rfl, read?_main, Option.bind_some,
    hdecode]
  rfl

/-- The catalog with the default database in `main.rfdb`. -/
def mainCatalog : Catalog := ((Catalog.empty ⟨""⟩ mainDisk).createDefault ⟨"main.rfdb"⟩).2

lemma mainCatalog_eq :
    mainCatalog = ((Catalog.empty ⟨""⟩ mainDisk).register defaultDatabase mainGraph false).2 := by
  have himage : Graph.hasImage mainDisk ⟨"main.rfdb"⟩ = true := Disk.contains_of_read? read?_main
  have hload : Graph.loadOrCreate mainDisk ⟨"main.rfdb"⟩ = (.ok mainGraph, mainDisk) := by
    unfold Graph.loadOrCreate
    rw [if_pos himage, load_main]
  unfold mainCatalog createDefault
  simp only [Catalog.empty, hload]

lemma getDatabase_main : mainCatalog.getDatabase "main"
    = (.ok 1, (mainCatalog.register "main" mainGraph false).2) := by
  have hlocation : mainCatalog.location "main" = ⟨"main.rfdb"⟩ := by
    rw [mainCatalog_eq]
    decide +kernel
  have hname : mainCatalog.registered["main"]? = none := by
    rw [mainCatalog_eq]
    decide +kernel
  have hdisk : mainCatalog.disk = mainDisk := by
    rw [mainCatalog_eq]
    rfl
  have hnext : mainCatalog.nextHandle = 1 := by
    rw [mainCatalog_eq]
    rfl
  have hvalid : checkName "main" = .ok () := by decide +kernel
  have himage : Graph.hasImage mainDisk ⟨"main.rfdb"⟩ = true := Disk.contains_of_read? read?_main
  unfold getDatabase
  rw [hname, hvalid, hlocation, hdisk, if_pos himage, load_main]
  simp only [register, hnext]

/-- A client opens the database `main`. -/
def openingMain : List Event :=
  [.accept .unix, .request 0 atStart (.openDatabase "main" "rw")]

/-- A server whose default database lies in `main.rfdb`. -/
def mainServer : Server := ⟨mainCatalog, .start false, none, 0⟩

/-- The population after the database `main` has been opened. -/
def mainOpened : Population := openingMain.foldl step ⟨mainServer, []⟩

/-- Opening a database that is found attaches the session to it. -/
lemma dispatch_openDatabase {server : Server} {name : String} {handle : Handle} {c : Catalog}
    {db : Database} (hfound : server.catalog.getDatabase name = (.ok handle, c))
    (hdb : c.database? handle = some db) (s : Session) (r : Readings) (mode : String) :
    (server.dispatch s r (.openDatabase name mode)).2
      = (server.withCatalog (s.openDatabase c handle (.ofName mode)).2,
        (s.openDatabase c handle (.ofName mode)).1) := by
  change (server.openDatabase s name (.ofName mode)).2 = _
  unfold Server.openDatabase
  rw [hfound]
  simp only [hdb]

lemma mainOpened_catalog : mainOpened.server.catalog
    = (mainCatalog.register "main" mainGraph false).2.attach 1 := by
  have hdb : ((mainCatalog.register "main" mainGraph false).2).database? 1
      = some ⟨"main", mainGraph, false, 0⟩ := by
    rw [database?_register, mainCatalog_eq]
    rfl
  have haccepted : (Population.step ⟨mainServer, []⟩ (.accept .unix)).connections[0]?
      = some (Connection.start 0 .unix).accepted := rfl
  have hfound : (Population.step ⟨mainServer, []⟩ (.accept .unix)).server.catalog.getDatabase "main"
      = (.ok 1, (mainCatalog.register "main" mainGraph false).2) := getDatabase_main
  unfold mainOpened openingMain
  rw [List.foldl_cons, List.foldl_cons, List.foldl_nil, step_request haccepted,
    dispatch_openDatabase hfound hdb]
  rfl

lemma liesAt_mainOpened :
    mainOpened.LiesAt "default" ⟨"main.rfdb"⟩ ∧ mainOpened.LiesAt "main" ⟨"main.rfdb"⟩ := by
  have hlocation : mainGraph.location = some ⟨"main.rfdb"⟩ := Graph.ofImage_location _ _
  unfold LiesAt
  rw [mainOpened_catalog, mainCatalog_eq]
  exact ⟨⟨0, ⟨"default", mainGraph, false, 0⟩, rfl, rfl, rfl, hlocation⟩,
    ⟨1, ⟨"main", mainGraph, false, 1⟩, rfl, rfl, rfl, hlocation⟩⟩

lemma target?_main : (Path.mk "main.rfdb").target? = some ["main.rfdb"] := by
  unfold Path.target? Path.steps Path.parts
  rw [splitOn_slash]
  decide +kernel

/-- The default database and the database `main` have the same directory, since the default one
lies at its own path and the name `main` leads there. -/
theorem directories_main : mainOpened.LiesAt "default" ⟨"main.rfdb"⟩ ∧
    mainOpened.LiesAt "main" ⟨"main.rfdb"⟩ ∧
    (Path.mk "main.rfdb").SameTarget ((Path.mk "").join ("main" ++ ".rfdb")) := by
  obtain ⟨hdefault, hmain⟩ := liesAt_mainOpened
  have hstart : mainServer.catalog
      = ((Catalog.empty ⟨""⟩ mainDisk).createDefault ⟨"main.rfdb"⟩).2 := rfl
  have hrun : mainOpened = openingMain.foldl step ⟨mainServer, []⟩ := rfl
  obtain ⟨-, hiff, -⟩ := directories hstart openingMain hrun
  have hsame : (Path.mk "main.rfdb").SameTarget ⟨"main.rfdb"⟩ := ⟨_, target?_main, target?_main⟩
  refine ⟨hdefault, hmain, ?_⟩
  rcases (hiff _ _ _ _ hdefault hmain (by decide)).1 hsame with ⟨-, -, hleads⟩ | ⟨hname, -⟩
  · exact hleads
  · exact absurd hname (by decide)

/-- The same directory can be that of two registered persistent databases: the default one,
and the one that a client opens by the name that its directory has in the base directory. -/
theorem two_databases_in_one_directory :
    ∃ (server : Server) (base path : Path) (disk : Disk) (events : List Event),
      server.catalog = ((Catalog.empty base disk).createDefault path).2 ∧
      ∃ name name' location location',
        (events.foldl step ⟨server, []⟩).LiesAt name location ∧
        (events.foldl step ⟨server, []⟩).LiesAt name' location' ∧
        name ≠ name' ∧ location.SameTarget location' := by
  obtain ⟨hdefault, hmain⟩ := liesAt_mainOpened
  exact ⟨mainServer, ⟨""⟩, ⟨"main.rfdb"⟩, mainDisk, openingMain, rfl, _, _, _, _, hdefault, hmain,
    by decide, _, target?_main, target?_main⟩

end Population

end CodeGraph
