import Mathlib
import CodeGraph.Proofs.Server.Population

/-!
# What all databases have

A database comes into a catalog when it is made or found on the disk, and from then on only
operations on its graph and the count of its users change it.  So a property that new
databases have, and that operations on the graph keep, is had by all databases after any run
(`Catalog.DatabaseInvariant.step`).

* `Population.Reachable.graph_reachable` : all graphs of a server are reachable as graphs, so
  what is proved about those holds of every open database.
-/

namespace CodeGraph

open Catalog

namespace Catalog

/-- A property of databases that new ones have, those that lie in the base directory being
called by their names there, and that operations on the graph keep. -/
structure DatabaseInvariant (base : Path) (P : Database → Prop) : Prop where
  made : ∀ {name : String} {graph : Graph} {ephemeral : Bool}, checkName name = .ok () →
    graph.Reachable →
    graph.location = (if ephemeral then none else some (base.join (name ++ ".rfdb"))) →
    P ⟨name, graph, ephemeral, 0⟩
  kept : ∀ {db db' : Database}, P db → db'.name = db.name → db'.ephemeral = db.ephemeral →
    db.graph.Follows db'.graph → P db'

/-- All databases of a catalog with some base directory have a property. -/
structure AllHave (base : Path) (P : Database → Prop) (c : Catalog) : Prop where
  base_eq : c.base = base
  database : ∀ {handle : Handle} {db : Database}, c.database? handle = some db → P db

namespace AllHave

variable {base : Path} {P : Database → Prop} {c c' : Catalog}

lemma empty (base : Path) (disk : Disk) : (Catalog.empty base disk).AllHave base P :=
  ⟨rfl, fun h => by simp [Catalog.empty, database?] at h⟩

/-- The disk and the names have no part in it. -/
lemma congr (h : c.AllHave base P) (hbase : c'.base = c.base)
    (hdatabases : c'.databases = c.databases) : c'.AllHave base P := by
  refine ⟨hbase.trans h.base_eq, fun {handle db} hdb => ?_⟩
  unfold database? at hdb
  rw [hdatabases] at hdb
  exact h.database hdb

lemma register (h : c.AllHave base P) {name : String} {graph : Graph} {ephemeral : Bool}
    (hnew : P ⟨name, graph, ephemeral, 0⟩) :
    (c.register name graph ephemeral).2.AllHave base P := by
  refine ⟨h.base_eq, fun {handle db} hdb => ?_⟩
  rw [database?_register] at hdb
  split at hdb
  · exact Option.some.inj hdb ▸ hnew
  · exact h.database hdb

end AllHave

namespace DatabaseInvariant

variable {base : Path} {P : Database → Prop} {c c' : Catalog}

lemma modify (hP : DatabaseInvariant base P) (h : c.AllHave base P) {handle : Handle}
    {f : Database → Database} (hname : ∀ db, (f db).name = db.name)
    (hephemeral : ∀ db, (f db).ephemeral = db.ephemeral)
    (hfollows : ∀ db, c.database? handle = some db → db.graph.Follows (f db).graph) :
    (c.modify handle f).AllHave base P := by
  refine ⟨h.base_eq, fun {other db} hdb => ?_⟩
  rw [database?_modify] at hdb
  split at hdb
  · obtain ⟨old, hold, rfl⟩ := Option.map_eq_some_iff.1 hdb
    exact hP.kept (h.database hold) (hname old) (hephemeral old) (hfollows old hold)
  · exact h.database hdb

lemma attach (hP : DatabaseInvariant base P) (h : c.AllHave base P) (handle : Handle) :
    (c.attach handle).AllHave base P :=
  hP.modify h (fun _ => rfl) (fun _ => rfl) fun db _ => .refl db.graph

lemma detach (hP : DatabaseInvariant base P) (h : c.AllHave base P) (handle : Handle) :
    (c.detach handle).AllHave base P :=
  hP.modify h (fun _ => rfl) (fun _ => rfl) fun db _ => .refl db.graph

lemma cleanUp (h : c.AllHave base P) (name : String) : (c.cleanUp name).AllHave base P := by
  unfold Catalog.cleanUp
  split
  · split
    · exact h.congr rfl rfl
    · exact h
  · exact h

lemma getDatabase (hP : DatabaseInvariant base P) (h : c.AllHave base P) {name : String}
    {result : Except Failure Handle} (hfound : c.getDatabase name = (result, c')) :
    c'.AllHave base P := by
  unfold Catalog.getDatabase at hfound
  split at hfound
  · exact (Prod.mk.inj hfound).2 ▸ h
  · split at hfound
    · exact (Prod.mk.inj hfound).2 ▸ h
    · next hname =>
      split at hfound
      · split at hfound
        · next graph hload =>
          obtain rfl := (Prod.mk.inj hfound).2
          refine h.register (hP.made hname (.opened hload) ?_)
          rw [Graph.load_location hload, location, h.base_eq]
          rfl
        · exact (Prod.mk.inj hfound).2 ▸ h
      · exact (Prod.mk.inj hfound).2 ▸ h

lemma createDatabase (hP : DatabaseInvariant base P) (h : c.AllHave base P) (name : String)
    (ephemeral : Bool) : (c.createDatabase name ephemeral).2.AllHave base P := by
  unfold Catalog.createDatabase
  split
  · exact h
  · next hname =>
    split
    · exact h
    · split
      · next hephemeral =>
        exact h.register (hP.made hname .ephemeral rfl)
      · simp only
        have hdisk : AllHave base P
            { c with disk := (Graph.loadOrCreate c.disk (c.location name)).2 } := h.congr rfl rfl
        split
        · next graph hgraph =>
          obtain ⟨hreach, hlocation⟩ := Graph.loadOrCreate_eq_ok (Prod.ext hgraph rfl)
          refine hdisk.register (hP.made hname hreach ?_)
          rw [hlocation, location, h.base_eq]
          rfl
        · exact hdisk

lemma dropDatabase (h : c.AllHave base P) (name : String) :
    (c.dropDatabase name).2.AllHave base P := by
  unfold Catalog.dropDatabase
  split
  · exact h
  · split
    · exact h
    · split
      · exact h.congr rfl rfl
      · exact h.congr rfl rfl

lemma flushAll (hP : DatabaseInvariant base P) (h : c.AllHave base P) :
    c.flushAll.2.AllHave base P := by
  refine List.foldlRecOn (motive := fun state : Nat × Catalog => AllHave base P state.2)
    (c.registered.toList.map Prod.snd) flushOne (b := (0, c)) h ?_
  rintro ⟨failures, c⟩ h handle -
  unfold flushOne
  simp only
  split
  · exact h
  · next db hdb =>
    split
    · next graph hflush =>
      have hdisk : AllHave base P { c with disk := (db.graph.flush c.disk).2 } := h.congr rfl rfl
      refine hP.modify hdisk (f := fun db => { db with graph := graph }) (fun _ => rfl)
        (fun _ => rfl) fun found hfound => ?_
      obtain rfl : db = found := Option.some.inj (hdb.symm.trans hfound)
      exact .of_flush hflush
    · exact h.congr rfl rfl

/-! ### Sessions and servers -/

lemma closeDatabase (hP : DatabaseInvariant base P) (h : c.AllHave base P) (s : Session) :
    (s.closeDatabase c).2.AllHave base P := by
  unfold Session.closeDatabase
  split
  · exact h
  · next handle _ =>
    simp only
    split
    · exact cleanUp (hP.detach h handle) _
    · exact hP.detach h handle

lemma openDatabase (hP : DatabaseInvariant base P) (h : c.AllHave base P) (s : Session)
    (handle : Handle) (mode : AccessMode) : (s.openDatabase c handle mode).2.AllHave base P := by
  unfold Session.openDatabase
  split
  · exact h
  · exact hP.attach (hP.closeDatabase h s) handle

/-- Carrying out a request keeps what all databases have. -/
lemma transition (hP : DatabaseInvariant base P) (h : c.AllHave base P) {s s' : Session}
    {request : Request} (htransition : Transition c s request c' s') : c'.AllHave base P := by
  cases htransition with
  | still => exact h
  | @written _ _ handle db graph disk _ _ _ hdb hfollows _ _ =>
    have hdisk : AllHave base P { c with disk := disk } := h.congr rfl rfl
    refine hP.modify hdisk (f := fun db => { db with graph := graph }) (fun _ => rfl)
      (fun _ => rfl) fun found hfound => ?_
    obtain rfl : db = found := Option.some.inj (hdb.symm.trans hfound)
    exact hfollows
  | flushed => exact hP.flushAll h
  | created name ephemeral => exact hP.createDatabase h name ephemeral
  | dropped name => exact dropDatabase h name
  | found hfound => exact hP.getDatabase h hfound
  | opened hfound => exact hP.openDatabase (hP.getDatabase h hfound) s _ _
  | closed => exact hP.closeDatabase h s

/-- Every event keeps what all databases have. -/
theorem step (hP : DatabaseInvariant base P) {p : Population}
    (h : p.server.catalog.AllHave base P) (event : Population.Event) :
    (p.step event).server.catalog.AllHave base P := by
  cases p.effect event with
  | aside disk hcatalog _ _ =>
    rw [hcatalog]
    exact h.congr rfl rfl
  | moved _ _ htransition _ => exact hP.transition h htransition

/-- After any run all databases have what new databases get and keep. -/
theorem run (hP : DatabaseInvariant base P) {p : Population} (h : p.server.catalog.AllHave base P)
    (events : List Population.Event) :
    (events.foldl Population.step p).server.catalog.AllHave base P :=
  List.foldlRecOn (motive := fun p => AllHave base P (Population.server p).catalog) events
    Population.step h fun _ h event _ => hP.step h event

/-- A server that begins with a default database, which lies in a directory of its own. -/
lemma createDefault (base : Path) (disk : Disk) (path : Path)
    (hdefault : ∀ graph, Graph.Reachable graph → graph.location = some path →
      P ⟨defaultDatabase, graph, false, 0⟩) :
    ((Catalog.empty base disk).createDefault path).2.AllHave base P := by
  have hempty : (Catalog.empty base (Graph.loadOrCreate disk path).2).AllHave base P :=
    .empty base _
  unfold Catalog.createDefault
  simp only
  split
  · next graph hgraph =>
    obtain ⟨hreach, hlocation⟩ := Graph.loadOrCreate_eq_ok (Prod.ext hgraph rfl)
    exact hempty.register (hdefault graph hreach hlocation)
  · exact hempty

end DatabaseInvariant

lemma invariant_graph_reachable (base : Path) :
    DatabaseInvariant base fun db => db.graph.Reachable where
  made _ hreach _ := hreach
  kept hreach _ _ hfollows := hfollows.reachable hreach

end Catalog

/-- The graphs of all databases of a reachable population are reachable. -/
theorem Population.Reachable.graph_reachable {p : Population} (h : Reachable p) {handle : Handle}
    {db : Database} (hdb : p.server.catalog.database? handle = some db) : db.graph.Reachable := by
  have hall : ∃ base, p.server.catalog.AllHave base fun db => db.graph.Reachable := by
    clear hdb
    induction h with
    | @start server base disk h =>
      exact ⟨base, h ▸ .empty base disk⟩
    | @startDefault server base path disk h =>
      refine ⟨base, ?_⟩
      change server.catalog.AllHave base _
      rw [h]
      exact DatabaseInvariant.createDefault base disk path fun _ hreach _ => hreach
    | step event _ ih =>
      obtain ⟨base, hall⟩ := ih
      exact ⟨base, (invariant_graph_reachable base).step hall event⟩
  obtain ⟨base, hall⟩ := hall
  exact hall.database hdb

end CodeGraph
