import Mathlib
import CodeGraph.Proofs.Graph.Naming
import CodeGraph.Proofs.Server.Databases

/-!
# All nodes of a server stay named

A catalog is named when the graphs of all its databases are, and the images on its disk too, so
that what is opened from there is named again.  Carrying out a request keeps this
(`Server.named_dispatch`): operations on catalogs make and open databases but change no node,
and what requests make of the open graph is named.

A run is undisturbed when images are decoded as they were encoded and nobody else puts images
with unnamed nodes on the disk.  In such a run everything is named
(`Population.Undisturbed.named`), and a server that begins anew on the disk that is left has an
undisturbed run again.
-/

namespace CodeGraph

open Catalog

/-! ### Catalogs -/

namespace Catalog

/-- The graphs of all databases and the images on the disk are named. -/
structure Named (c : Catalog) : Prop where
  graph : ∀ {handle : Handle} {db : Database}, c.database? handle = some db → db.graph.Named
  disk : c.disk.Named

/-- The images of all databases are decoded as they were encoded. -/
def Legible (c : Catalog) : Prop :=
  ∀ (handle : Handle) (db : Database), c.database? handle = some db → db.graph.Legible

namespace Named

variable {c c' : Catalog}

lemma empty (base : Path) {disk : Disk} (h : disk.Named) : (Catalog.empty base disk).Named :=
  ⟨fun hdb => by simp [Catalog.empty, database?] at hdb, h⟩

lemma withDisk (h : c.Named) {disk : Disk} (hdisk : disk.Named) :
    { c with disk := disk }.Named :=
  ⟨h.graph, hdisk⟩

lemma register (h : c.Named) (name : String) {graph : Graph} (hgraph : graph.Named)
    (ephemeral : Bool) : (c.register name graph ephemeral).2.Named := by
  refine ⟨fun {handle db} hdb => ?_, h.disk⟩
  rw [database?_register] at hdb
  split at hdb
  · exact Option.some.inj hdb ▸ hgraph
  · exact h.graph hdb

lemma modify (h : c.Named) {handle : Handle} {f : Database → Database}
    (hf : ∀ db, c.database? handle = some db → (f db).graph.Named) :
    (c.modify handle f).Named := by
  refine ⟨fun {other db} hdb => ?_, h.disk⟩
  rw [database?_modify] at hdb
  split at hdb
  · obtain ⟨old, hold, rfl⟩ := Option.map_eq_some_iff.1 hdb
    exact hf old hold
  · exact h.graph hdb

lemma attach (h : c.Named) (handle : Handle) : (c.attach handle).Named :=
  h.modify fun db hdb => (h.graph hdb : db.graph.Named)

lemma detach (h : c.Named) (handle : Handle) : (c.detach handle).Named :=
  h.modify fun db hdb => (h.graph hdb : db.graph.Named)

lemma cleanUp (h : c.Named) (name : String) : (c.cleanUp name).Named := by
  unfold Catalog.cleanUp
  split
  · split
    · exact ⟨h.graph, h.disk⟩
    · exact h
  · exact h

lemma getDatabase (h : c.Named) {name : String} {result : Except Failure Handle}
    (hfound : c.getDatabase name = (result, c')) : c'.Named := by
  unfold Catalog.getDatabase at hfound
  split at hfound
  · exact (Prod.mk.inj hfound).2 ▸ h
  · split at hfound
    · exact (Prod.mk.inj hfound).2 ▸ h
    · split at hfound
      · split at hfound
        · next graph hload =>
          obtain rfl := (Prod.mk.inj hfound).2
          exact h.register name (Graph.named_of_load h.disk hload) false
        · exact (Prod.mk.inj hfound).2 ▸ h
      · exact (Prod.mk.inj hfound).2 ▸ h

lemma createDatabase (h : c.Named) (name : String) (ephemeral : Bool) :
    (c.createDatabase name ephemeral).2.Named := by
  obtain ⟨hdisk, hgraph⟩ := Graph.named_of_loadOrCreate h.disk (c.location name)
  unfold Catalog.createDatabase
  split
  · exact h
  · split
    · exact h
    · split
      · exact h.register name (.empty none) true
      · simp only
        split
        · next graph hok => exact (h.withDisk hdisk).register name (hgraph graph hok) false
        · exact h.withDisk hdisk

/-- A server that begins with a default database. -/
lemma createDefault (h : c.Named) (path : Path) : (c.createDefault path).2.Named := by
  obtain ⟨hdisk, hgraph⟩ := Graph.named_of_loadOrCreate h.disk path
  unfold Catalog.createDefault
  simp only
  split
  · next graph hok => exact (h.withDisk hdisk).register _ (hgraph graph hok) false
  · exact h.withDisk hdisk

lemma removeFiles (h : c.Named) (db : Database) : (c.removeFiles db).2.Named := by
  unfold Catalog.removeFiles
  split
  · split
    · exact h.disk.removeDirectory _
    · exact h.disk
  · exact h.disk

lemma dropDatabase (h : c.Named) (name : String) : (c.dropDatabase name).2.Named := by
  unfold Catalog.dropDatabase
  split
  · exact h
  · next db _ =>
    have hdisk := h.removeFiles db
    split
    · exact h
    · split
      · next heq => exact ⟨h.graph, by rwa [heq] at hdisk⟩
      · next heq => exact ⟨h.graph, by rwa [heq] at hdisk⟩

/-- Flushing databases changes no image, so all stay legible while one after the other is
flushed. -/
lemma flushAll (h : c.Named) (hlegible : c.Legible) : c.flushAll.2.Named := by
  refine (List.foldlRecOn (motive := fun state : Nat × Catalog => Named state.2 ∧ Legible state.2)
    (c.registered.toList.map Prod.snd) flushOne (b := (0, c)) ⟨h, hlegible⟩ ?_).1
  rintro ⟨failures, c⟩ ⟨h, hlegible⟩ handle -
  unfold flushOne
  simp only
  split
  · exact ⟨h, hlegible⟩
  · next db hdb =>
    have hdisk := (h.graph hdb).flush_disk (hlegible handle db hdb) h.disk
    split
    · next graph hflush =>
      have hgraph : graph.Named := (h.graph hdb).flush hflush
      refine ⟨(h.withDisk hdisk).modify fun _ _ => hgraph, fun other found hfound => ?_⟩
      rw [database?_modify] at hfound
      split at hfound
      · obtain ⟨old, -, rfl⟩ := Option.map_eq_some_iff.1 hfound
        obtain rfl := Graph.flush_fst_eq_ok hflush
        exact hlegible handle db hdb
      · exact hlegible other found hfound
    · exact ⟨h.withDisk hdisk, hlegible⟩

/-! ### Requests -/

lemma closeDatabase (h : c.Named) (s : Session) : (s.closeDatabase c).2.Named := by
  unfold Session.closeDatabase
  split
  · exact h
  · next handle _ =>
    simp only
    split
    · exact (h.detach handle).cleanUp _
    · exact h.detach handle

lemma openDatabase (h : c.Named) (s : Session) (handle : Handle) (mode : AccessMode) :
    (s.openDatabase c handle mode).2.Named := by
  unfold Session.openDatabase
  split
  · exact h
  · exact (h.closeDatabase s).attach handle

/-- What does not write to the open graph keeps everything named. -/
lemma transition (h : c.Named) (hlegible : c.Legible) {s s' : Session} {request : Request}
    (htransition : Transition c s request c' s') (hreads : request.writes = false) :
    c'.Named := by
  cases htransition with
  | still => exact h
  | written hwrites => simp [hreads] at hwrites
  | flushed => exact h.flushAll hlegible
  | created name ephemeral => exact h.createDatabase name ephemeral
  | dropped name => exact h.dropDatabase name
  | found hfound => exact h.getDatabase hfound
  | opened hfound => exact (h.getDatabase hfound).openDatabase s _ _
  | closed => exact h.closeDatabase s

end Named

end Catalog

namespace Server

variable (server : Server) (s : Session) (r : Readings)

/-- A request that writes changes the catalog by what it makes of the open graph. -/
lemma dispatch_catalog_of_change {request : Request} {change : Graph → Disk → Change}
    (hchange : request.change? r.now = some change) :
    (server.dispatch s r request).2.1.catalog = (server.change s change).2.catalog := by
  have hwrites : request.writes = true := by
    rw [← request.isSome_change? r.now, hchange, Option.isSome_some]
  have hquestion := request.isSome_question? s.rules
  rw [request.reads_eq_false hwrites, Option.isSome_eq_false_iff, Option.isNone_iff_eq_none]
    at hquestion
  have hrespond : (server.respond s r request).2.1.catalog
      = (server.change s change).2.catalog := by
    rw [respond, hquestion, hchange]
    exact ((server.change s change).2.afterChange_eq s r request _).1
  unfold dispatch
  split
  · simp [Request.writes] at hwrites
  · simp [Request.writes] at hwrites
  · exact hrespond

variable {server s r}

lemma named_change {request : Request} {change : Graph → Disk → Change}
    (hchange : request.change? r.now = some change) (h : server.catalog.Named)
    (hbefore : server.catalog.Legible) (hafter : (server.change s change).2.catalog.Legible) :
    (server.change s change).2.catalog.Named := by
  unfold Server.change at hafter ⊢
  split at hafter
  · next handle db hopen hdb =>
    rw [Session.database?, hopen, Option.bind_some] at hdb
    split at hafter
    · next hmode =>
      have hchanged : (server.catalog.modify handle fun old =>
          { old with graph := (change db.graph server.catalog.disk).graph }).database? handle
            = some { db with graph := (change db.graph server.catalog.disk).graph } := by
        rw [database?_modify, if_pos rfl, hdb]
        rfl
      have hlegible := hafter handle _ hchanged
      have hnamed := Request.named_change hchange (h.graph hdb) h.disk
        (hbefore handle db hdb) hlegible
      rw [if_pos hmode]
      exact (h.withDisk hnamed.disk).modify fun _ _ => hnamed.graph
    · next hmode =>
      rw [if_neg hmode]
      exact h
  · exact h

/-- Carrying out a request keeps everything named, when the images of all databases are decoded
as they were encoded, before and after. -/
theorem named_dispatch (request : Request) (h : server.catalog.Named)
    (hbefore : server.catalog.Legible)
    (hafter : (server.dispatch s r request).2.1.catalog.Legible) :
    (server.dispatch s r request).2.1.catalog.Named := by
  cases hwrites : request.writes with
  | false => exact h.transition hbefore (server.dispatch_transition s r request) hwrites
  | true =>
    rw [← request.isSome_change? r.now, Option.isSome_iff_exists] at hwrites
    obtain ⟨change, hchange⟩ := hwrites
    rw [dispatch_catalog_of_change server s r hchange] at hafter ⊢
    exact named_change hchange h hbefore hafter

end Server

/-! ### Runs -/

namespace Population

/-- The populations that a new server can get to when the images on its disk are named, nobody
else puts others there, and all images are decoded as they were encoded. -/
inductive Undisturbed : Population → Prop
  | start {server : Server} {base : Path} {disk : Disk} (hdisk : disk.Named)
      (h : server.catalog = .empty base disk) : Undisturbed ⟨server, []⟩
  | startDefault {server : Server} {base path : Path} {disk : Disk} (hdisk : disk.Named)
      (h : server.catalog = ((Catalog.empty base disk).createDefault path).2)
      (hlegible : server.catalog.Legible) : Undisturbed ⟨server, []⟩
  | step {p : Population} (event : Event) (hdisk : ∀ disk, event = .outside disk → disk.Named)
      (hlegible : (p.step event).server.catalog.Legible) (h : Undisturbed p) :
      Undisturbed (p.step event)

variable {p : Population}

lemma Undisturbed.reachable (h : Undisturbed p) : Reachable p := by
  induction h with
  | start _ h => exact .start h
  | startDefault _ h _ => exact .startDefault h
  | step event _ _ _ ih => exact .step event ih

lemma Undisturbed.legible (h : Undisturbed p) : p.server.catalog.Legible := by
  cases h with
  | start _ h =>
    intro handle db hdb
    rw [h] at hdb
    simp [Catalog.empty, database?] at hdb
  | startDefault _ _ hlegible => exact hlegible
  | step _ _ hlegible _ => exact hlegible

/-- Serving a connection that is there leaves the server that the service makes. -/
lemma serve_server (p : Population) (client : Nat)
    (f : Server → Connection → Connection × Server) :
    (p.serve client f).server = p.server ∨
      ∃ conn, (p.serve client f).server = (f p.server conn).2 := by
  unfold serve
  split
  · next conn _ => exact .inr ⟨conn, rfl⟩
  · exact .inl rfl

/-- Every event keeps everything named. -/
theorem named_step (event : Event) (hdisk : ∀ disk, event = .outside disk → disk.Named)
    (h : p.server.catalog.Named) (hbefore : p.server.catalog.Legible)
    (hafter : (p.step event).server.catalog.Legible) : (p.step event).server.catalog.Named := by
  cases event with
  | accept transport => exact h
  | attachDefault client =>
    obtain heq | ⟨conn, heq⟩ := p.serve_server client Server.attachDefault
    · exact congrArg Server.catalog heq ▸ h
    · have hattach := attachDefault_transition p.server conn
      exact congrArg Server.catalog heq ▸ h.transition hbefore hattach rfl
  | request client r request =>
    obtain heq | ⟨conn, heq⟩ := p.serve_server client (answer r request)
    · exact congrArg Server.catalog heq ▸ h
    · change (p.serve client (answer r request)).server.catalog.Legible at hafter
      change (p.serve client (answer r request)).server.catalog.Named
      rw [heq] at hafter ⊢
      exact Server.named_dispatch request h hbefore hafter
  | close client =>
    obtain heq | ⟨conn, heq⟩ := p.serve_server client hangUp
    · exact congrArg Server.catalog heq ▸ h
    · have hclose := hangUp_transition p.server conn
      exact congrArg Server.catalog heq ▸ h.transition hbefore hclose rfl
  | outside disk => exact h.withDisk (hdisk disk rfl)

/-- In an undisturbed population everything is named. -/
theorem Undisturbed.named (h : Undisturbed p) : p.server.catalog.Named := by
  induction h with
  | start hdisk h => exact h ▸ .empty _ hdisk
  | startDefault hdisk h _ => exact h ▸ (Named.empty _ hdisk).createDefault _
  | step event hdisk hlegible h ih => exact named_step event hdisk ih h.legible hlegible

end Population

end CodeGraph
