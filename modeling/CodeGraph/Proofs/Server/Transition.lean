import Mathlib
import CodeGraph.Proofs.Catalog
import CodeGraph.Server.Dispatch

/-!
# What requests do

Carrying out a request is one of a few `Transition`s of the catalog and the session
(`Server.dispatch_transition`), and each of them keeps the count of users and changes no more
databases than it should (`Transition.spec`).  Everything that is said about servers with many
clients follows from these two facts.

Requests that read or write the open graph are turned away when it is not open, or not open
for changes (`Server.dispatch_of_no_database`, `Server.dispatch_of_readOnly`).
-/

namespace CodeGraph

open Catalog

/-! ### Kinds of requests -/

namespace Request

/-- Whether a request writes to the open graph. -/
def writes : Request → Bool
  | addNodes .. | addEdges .. | deleteNode _ | deleteEdge .. | updateNodeVersion ..
  | declareFields _ | commitBatch .. | rebuildIndexes | createSnapshot _ | restoreSnapshot _
  | deleteSnapshot _ | tagSnapshot .. | flush | compact | clear => true
  | _ => false

/-- Whether a request reads the open graph. -/
def reads : Request → Bool
  | getNode _ | nodeExists _ | getNodeIdentifier _ | isEndpoint _ | findByType _ | findByAttr _
  | queryNodes _ | getAllEdges | getOutgoingEdges .. | getIncomingEdges .. | queryEdges ..
  | findDependentFiles .. | nodeCount | edgeCount | countNodesByType _ | countEdgesByType _
  | neighbors .. | bfs .. | dfs .. | reachability .. | listSnapshots _ | diffSnapshots ..
  | findSnapshot .. | checkGuarantee _ | datalogQuery _ | executeDatalog _ => true
  | _ => false

/-- The requests that write are those that change the open graph. -/
lemma isSome_change? (now : Nat) (request : Request) :
    (request.change? now).isSome = request.writes := by
  cases request <;> rfl

/-- The requests that read are those that ask the open graph. -/
lemma isSome_question? (rules : List Rules.Rule) (request : Request) :
    (request.question? rules).isSome = request.reads := by
  cases request <;> rfl

/-- A request that writes does not only read. -/
lemma reads_eq_false {request : Request} (h : request.writes = true) : request.reads = false := by
  cases request <;> first | rfl | simp [writes] at h

/-- What a request makes of the open graph comes from it by operations. -/
lemma follows_change {now : Nat} {request : Request} {change : Graph → Disk → Change}
    (h : request.change? now = some change) (g : Graph) (disk : Disk) :
    g.Follows (change g disk).graph := by
  have hexcept : ∀ {outcome : Except Failure Graph}, g.Follows (g.unlessRefused outcome) →
      g.Follows (Change.ofExcept g disk outcome).graph := by
    intro outcome hfollows
    cases outcome with
    | ok g' => exact hfollows
    | error failure => exact .refl g
  cases request with
  | addNodes nodes =>
    obtain rfl := Option.some.inj h
    exact .of_perform g (.addNodes (nodes.map .ofWire))
  | deleteNode id =>
    obtain rfl := Option.some.inj h
    exact .of_perform g (.deleteNode (.parse id))
  | addEdges edges skipValidation =>
    obtain rfl := Option.some.inj h
    exact .of_perform g (.addEdges (g.admissible (edges.map .ofWire) skipValidation) true)
  | deleteEdge src dst type =>
    obtain rfl := Option.some.inj h
    exact .of_perform g (.deleteEdge ⟨.parse src, .parse dst, type⟩)
  | updateNodeVersion id version =>
    obtain rfl := Option.some.inj h
    simp only [Graph.updateVersion]
    split
    · next node _ => exact .of_perform g (.addNodes [Graph.withVersion node version])
    · exact .refl g
  | declareFields fields =>
    obtain rfl := Option.some.inj h
    exact .of_perform g (.declareFields (fields.map .ofWire))
  | commitBatch files nodes edges =>
    obtain rfl := Option.some.inj h
    have hperform := Graph.Follows.of_perform g
      (.commitBatch disk files (nodes.map .ofWire) (edges.map .ofWire))
    change g.Follows (g.commitBatch disk files (nodes.map .ofWire) (edges.map .ofWire)).2.1
      at hperform
    simp only [Graph.commit]
    split
    · next hcommit => rwa [hcommit] at hperform
    · next hcommit => rwa [hcommit] at hperform
  | rebuildIndexes =>
    obtain rfl := Option.some.inj h
    exact .of_perform g .rebuild
  | createSnapshot tags =>
    obtain rfl := Option.some.inj h
    exact .of_perform g (.createSnapshot tags now)
  | restoreSnapshot version =>
    obtain rfl := Option.some.inj h
    exact hexcept (.of_perform g (.restoreSnapshot version))
  | deleteSnapshot version =>
    obtain rfl := Option.some.inj h
    exact hexcept (.of_perform g (.deleteSnapshot version))
  | tagSnapshot version tags =>
    obtain rfl := Option.some.inj h
    exact hexcept (.of_perform g (.tagSnapshot version tags))
  | flush =>
    obtain rfl := Option.some.inj h
    simp only [Graph.flushed]
    split
    · next hflush => exact .of_flush (congrArg Prod.fst hflush)
    · exact .refl g
  | compact =>
    obtain rfl := Option.some.inj h
    have hperform := Graph.Follows.of_perform g (.compact disk)
    change g.Follows (g.compact disk).2.1 at hperform
    simp only [Graph.compacted]
    split
    · next hcompact => rwa [hcompact] at hperform
    · next hcompact => rwa [hcompact] at hperform
  | clear =>
    obtain rfl := Option.some.inj h
    exact .of_perform g .clear
  | _ => simp [change?] at h

/-- The names that a request may give to new databases. -/
def names : Request → Set String
  | createDatabase name _ | openDatabase name _ => {name}
  | _ => ∅

/-- Names are given by requests to create or open a database. -/
lemma mem_names_iff {request : Request} {name : String} : name ∈ request.names ↔
    (∃ ephemeral, request = .createDatabase name ephemeral) ∨
      ∃ mode, request = .openDatabase name mode := by
  cases request <;> simp [names, eq_comm]

end Request

/-- The databases of which a request may change the contents: the open one, if the session has
it open for changes and the request writes. -/
def Session.touches (s : Session) (request : Request) : Set Handle :=
  {handle | s.current = some handle ∧ s.mode = .readWrite ∧ request.writes = true ∧
    request ≠ .flush}

/-- The database that a request drops. -/
def Catalog.drops (c : Catalog) (request : Request) : Set Handle :=
  {handle | ∃ name, request = .dropDatabase name ∧ c.registered[name]? = some handle ∧
    (c.dropDatabase name).1 = .ok ()}

/-! ### Transitions -/

/-- What a request can do to the catalog and to the session from which it comes. -/
inductive Transition (c : Catalog) (s : Session) : Request → Catalog → Session → Prop
  | still {request : Request} {s' : Session} (hkept : ∀ name, request ≠ .dropDatabase name)
      (hcurrent : s'.current = s.current) : Transition c s request c s'
  | written {request : Request} {s' : Session} {handle : Handle} {db : Database} {graph : Graph}
      {disk : Disk} (hwrites : request.writes = true) (hmode : s.mode = .readWrite)
      (hopen : s.current = some handle) (hdb : c.database? handle = some db)
      (hfollows : db.graph.Follows graph) (hflush : request = .flush → db.graph.SameData graph)
      (hcurrent : s'.current = s.current) : Transition c s request
        ({ c with disk := disk }.modify handle fun db => { db with graph := graph }) s'
  | flushed : Transition c s .shutdown c.flushAll.2 s
  | created (name : String) (ephemeral : Bool) :
      Transition c s (.createDatabase name ephemeral) (c.createDatabase name ephemeral).2 s
  | dropped (name : String) : Transition c s (.dropDatabase name) (c.dropDatabase name).2 s
  | found {name mode : String} {handle : Handle} {c' : Catalog}
      (hfound : c.getDatabase name = (.ok handle, c')) :
      Transition c s (.openDatabase name mode) c' s
  | opened {name mode : String} {handle : Handle} {c' : Catalog}
      (hfound : c.getDatabase name = (.ok handle, c')) :
      Transition c s (.openDatabase name mode)
        (s.openDatabase c' handle (.ofName mode)).2 (s.openDatabase c' handle (.ofName mode)).1
  | closed : Transition c s .closeDatabase (s.closeDatabase c).2 (s.closeDatabase c).1

/-- A database that is not found leaves the catalog as it was. -/
lemma Catalog.getDatabase_error {c c' : Catalog} {name : String} {failure : Failure}
    (h : c.getDatabase name = (.error failure, c')) : c' = c := by
  unfold getDatabase at h
  split at h
  · simp at h
  · split at h
    · exact (Prod.mk.inj h).2.symm
    · split at h
      · split at h
        · simp at h
        · exact (Prod.mk.inj h).2.symm
      · exact (Prod.mk.inj h).2.symm

/-- Only a request to drop a database drops one. -/
lemma Catalog.drops_eq_empty (c : Catalog) {request : Request}
    (h : ∀ name, request ≠ .dropDatabase name) : c.drops request = ∅ := by
  ext handle
  simp only [drops, Set.mem_ofPred_eq, Set.mem_empty_iff_false, iff_false]
  rintro ⟨name, rfl, -⟩
  exact h name rfl

/-- A registered database is dropped by its name. -/
lemma Catalog.Balanced.mem_drops_iff {c : Catalog} {users : Handle → Nat} (h : c.Balanced users)
    {request : Request} {name : String} {handle : Handle}
    (hname : c.registered[name]? = some handle) :
    handle ∈ c.drops request ↔
      request = .dropDatabase name ∧ (c.dropDatabase name).1 = .ok () := by
  constructor
  · rintro ⟨found, rfl, hfound, hok⟩
    obtain ⟨db, hdb, rfl⟩ := h.registered hname
    obtain rfl := h.name_eq hfound hdb
    exact ⟨rfl, hok⟩
  · rintro ⟨rfl, hok⟩
    exact ⟨name, rfl, hname, hok⟩

/-- Every transition keeps the count of users.  It changes the contents of no database but the
open one, and that only if the session may write; it takes no names but those of the ephemeral
database that is abandoned and of the one that is dropped; and it gives no names but those in
the request. -/
theorem Transition.spec {c c' : Catalog} {s s' : Session} {request : Request}
    (h : Transition c s request c' s') {others : Handle → Nat}
    (hbalanced : c.Balanced (withSession others s.current)) :
    c'.Balanced (withSession others s'.current) ∧
      Becomes c c' (s.touches request) (s.abandons c others s'.current ∪ c.drops request)
        request.names := by
  have hstay := s.abandons_self c others
  cases h with
  | still hkept hcurrent =>
    rw [hcurrent, hstay, c.drops_eq_empty hkept, Set.union_empty]
    exact ⟨hbalanced, (Becomes.refl c).mono (Set.empty_subset _) rfl (Set.empty_subset _)⟩
  | @written _ s' handle db graph disk hwrites hmode hopen hdb hfollows hflush hcurrent =>
    have hkept (name : String) : request ≠ .dropDatabase name := by
      rintro rfl
      simp [Request.writes] at hwrites
    rw [hcurrent, hstay, c.drops_eq_empty hkept]
    refine ⟨(hbalanced.withDisk disk).modifyGraph handle graph, ?_⟩
    -- A flush writes as well, but it leaves the contents of the graph alone.
    have hdisk := Becomes.withDisk c disk
    have hmodify := Becomes.modify { c with disk := disk } handle
      (f := fun db => { db with graph := graph }) (fun _ => rfl) fun _ => rfl
    refine (hdisk.trans hmodify).mono ?_ (by simp) (by simp)
    rintro other (hnone | ⟨rfl, found, hfound, hdiffers⟩)
    · exact hnone.elim
    · obtain rfl := Option.some.inj (hdb.symm.trans hfound)
      exact ⟨hopen, hmode, hwrites, fun heq => hdiffers (hflush heq)⟩
  | flushed =>
    rw [hstay]
    obtain ⟨hbalanced', hbecomes⟩ := hbalanced.flushAll
    exact ⟨hbalanced', hbecomes.mono (Set.empty_subset _) (by simp [drops]) (Set.empty_subset _)⟩
  | created name ephemeral =>
    rw [hstay]
    obtain ⟨hbalanced', hbecomes⟩ := hbalanced.createDatabase name ephemeral
    exact ⟨hbalanced', hbecomes.mono (Set.empty_subset _) (by simp [drops]) le_rfl⟩
  | dropped name =>
    rw [hstay]
    obtain ⟨hbalanced', hbecomes⟩ := hbalanced.dropDatabase name
    exact ⟨hbalanced', hbecomes.mono (Set.empty_subset _) (by simp [drops]) le_rfl⟩
  | found hfound =>
    rw [hstay]
    obtain ⟨hbalanced', hbecomes, -⟩ := hbalanced.getDatabase hfound
    exact ⟨hbalanced', hbecomes.mono (Set.empty_subset _) (by simp [drops]) le_rfl⟩
  | @opened name mode handle c' hfound =>
    obtain ⟨hbalanced', hbecomes, hname⟩ := hbalanced.getDatabase hfound
    obtain ⟨hbalanced'', hbecomes', hcurrent⟩ :=
      Session.openDatabase_spec hbalanced' hname (.ofName mode)
    -- What the session abandons was there before the other database was read from the disk.
    rw [Session.abandons_eq hbalanced hbecomes] at hbecomes'
    rw [hcurrent]
    exact ⟨hbalanced'', (hbecomes.trans hbecomes').mono (by simp) (by simp [drops]) le_rfl⟩
  | closed =>
    obtain ⟨hbalanced', hbecomes, hcurrent⟩ := Session.closeDatabase_spec hbalanced
    rw [hcurrent, withSession_none]
    exact ⟨hbalanced', hbecomes.mono (Set.empty_subset _) (by simp [drops]) (Set.empty_subset _)⟩

/-- Flushing changes nothing but the count of changes, whether it goes well or not. -/
lemma Graph.SameData.flushed (g : Graph) (disk : Disk) : g.SameData (g.flushed disk).graph := by
  unfold Graph.flushed
  split
  · next flushed _ heq => exact .of_flush (congrArg Prod.fst heq)
  · exact .refl g

namespace Server

/-! ### Dispatch -/

variable (server : Server) (s : Session) (r : Readings)

/-- Changing the open graph is a transition. -/
lemma change_transition {request : Request} {change : Graph → Disk → Change}
    (hchange : request.change? r.now = some change) {s' : Session}
    (hcurrent : s'.current = s.current) :
    Transition server.catalog s request (server.change s change).2.catalog s' := by
  have hkept (name : String) : request ≠ .dropDatabase name := by
    rintro rfl
    simp [Request.change?] at hchange
  unfold Server.change
  split
  · next handle db hopen hdb =>
    rw [Session.database?, hopen, Option.bind_some] at hdb
    cases hmode : s.mode with
    | readOnly => exact .still hkept hcurrent
    | readWrite =>
      have hwrites := request.isSome_change? r.now
      rw [hchange, Option.isSome_some] at hwrites
      refine .written hwrites.symm hmode hopen hdb (request.follows_change hchange _ _) ?_ hcurrent
      rintro rfl
      obtain rfl := Option.some.inj hchange
      exact .flushed db.graph server.catalog.disk
  · exact .still hkept hcurrent

/-- What happens after a change does not concern the databases. -/
lemma afterChange_eq (request : Request) (response : Response) :
    (server.afterChange s r request response).1.catalog = server.catalog ∧
      (server.afterChange s r request response).2.current = s.current := by
  unfold afterChange
  split
  · exact ⟨rfl, rfl⟩
  · split <;> exact ⟨rfl, rfl⟩

/-- Requests about sessions and databases are transitions. -/
lemma manage_transition (request : Request) :
    Transition server.catalog s request (server.manage s r request).2.1.catalog
      (server.manage s r request).2.2 := by
  cases request with
  | hello version name =>
    refine .still (by simp) ?_
    change (s.negotiate version name).current = s.current
    unfold Session.negotiate
    split <;> rfl
  | createDatabase name ephemeral => exact .created name ephemeral
  | dropDatabase name => exact .dropped name
  | openDatabase name mode =>
    change Transition server.catalog s (.openDatabase name mode)
      (server.openDatabase s name (.ofName mode)).2.1.catalog
      (server.openDatabase s name (.ofName mode)).2.2
    unfold openDatabase
    split
    · next handle catalog hfound =>
      split
      · exact .opened hfound
      · exact .found hfound
    · next failure catalog herror =>
      obtain rfl := getDatabase_error herror
      exact .still (by simp) rfl
  | closeDatabase => exact .closed
  | beginBatch =>
    refine .still (by simp) ?_
    change (beginBatch s).2.current = s.current
    unfold beginBatch Session.beginBatch
    cases s.batch <;> rfl
  | abortBatch =>
    refine .still (by simp) ?_
    change (abortBatch s).2.current = s.current
    unfold abortBatch
    split <;> rfl
  | datalogLoadRules source =>
    refine .still (by simp) ?_
    change (loadRules s source).2.current = s.current
    unfold loadRules
    split
    · rfl
    · split <;> rfl
  | _ => exact .still (by simp) rfl

/-- Carrying out a request with a single reply is a transition. -/
lemma respond_transition (request : Request) :
    Transition server.catalog s request (server.respond s r request).2.1.catalog
      (server.respond s r request).2.2 := by
  unfold respond
  split
  · next question _ hquestion =>
    refine .still (fun name => ?_) rfl
    rintro rfl
    simp [Request.question?] at hquestion
  · next change _ hchange =>
    obtain ⟨hcatalog, hcurrent⟩ := afterChange_eq (server.change s change).2 s r request
      (server.change s change).1
    simp only [hcatalog]
    exact server.change_transition s r hchange hcurrent
  · exact server.manage_transition s r request

/-- Carrying out a request is a transition. -/
theorem dispatch_transition (request : Request) :
    Transition server.catalog s request (server.dispatch s r request).2.1.catalog
      (server.dispatch s r request).2.2 := by
  unfold dispatch
  split
  · split <;> exact .still (by simp) rfl
  · exact .flushed
  · exact server.respond_transition s r _

/-! ### Requests that are turned away -/

variable {server s}

/-- What is asked of a session without a database is turned away. -/
lemma ask_of_no_database (hcurrent : s.current = none) (question : Graph → Response) :
    server.ask s question = .ofFailure .noDatabaseSelected := by
  rw [ask, Session.database?, hcurrent, Option.bind_none]

/-- What a session without a database changes is turned away. -/
lemma change_of_no_database (hcurrent : s.current = none) (change : Graph → Disk → Change) :
    server.change s change = (.ofFailure .noDatabaseSelected, server) := by
  rw [Server.change, hcurrent]

/-- What a session changes that may only read is turned away. -/
lemma change_of_readOnly (hmode : s.mode = .readOnly) {db : Database}
    (hopen : s.database? server.catalog = some db) (change : Graph → Disk → Change) :
    server.change s change = (.ofFailure .readOnlyMode, server) := by
  obtain ⟨handle, hcurrent, -⟩ := Option.bind_eq_some_iff.1 hopen
  rw [Server.change, hopen, hcurrent, hmode]
  rfl

/-- What a session changes that may write is changed in the graph that it has open. -/
lemma change_of_readWrite (hmode : s.mode = .readWrite) {handle : Handle} {db : Database}
    (hcurrent : s.current = some handle) (hdb : server.catalog.database? handle = some db)
    (change : Graph → Disk → Change) :
    server.change s change = ((change db.graph server.catalog.disk).response,
      server.withCatalog
        ({ server.catalog with disk := (change db.graph server.catalog.disk).disk }.modify handle
          fun old => { old with graph := (change db.graph server.catalog.disk).graph })) := by
  unfold Server.change
  rw [Session.database?, hcurrent, Option.bind_some, hdb, hmode]
  rfl

/-- A request to write that is turned away has no effect. -/
lemma dispatch_of_change {request : Request} (hwrites : request.writes = true)
    {failure : Failure} (hrefused : ∀ change, server.change s change
      = (.ofFailure failure, server)) :
    server.dispatch s r request = (.single (.ofFailure failure), server, s) := by
  have hquestion := request.isSome_question? s.rules
  rw [request.reads_eq_false hwrites, Option.isSome_eq_false_iff, Option.isNone_iff_eq_none]
    at hquestion
  have hchange := request.isSome_change? r.now
  rw [hwrites, Option.isSome_iff_exists] at hchange
  obtain ⟨change, hchange⟩ := hchange
  have hrespond : server.respond s r request = (.ofFailure failure, server, s) := by
    rw [respond, hquestion, hchange]
    simp only [hrefused]
    rfl
  unfold dispatch
  split
  · simp [Request.writes] at hwrites
  · simp [Request.writes] at hwrites
  · rw [hrespond]

/-- A request that reads or writes is turned away when no database is open, and so is one that
loads rules. -/
lemma dispatch_of_no_database (hcurrent : s.current = none) {request : Request}
    (hrequest : request.writes = true ∨ request.reads = true ∨
      ∃ source, request = .datalogLoadRules source) :
    server.dispatch s r request = (.single (.ofFailure .noDatabaseSelected), server, s) := by
  rcases hrequest with hwrites | hreads | ⟨source, rfl⟩
  · exact dispatch_of_change r hwrites (change_of_no_database hcurrent)
  · have hquestion := request.isSome_question? s.rules
    rw [hreads, Option.isSome_iff_exists] at hquestion
    obtain ⟨question, hquestion⟩ := hquestion
    have hrespond : server.respond s r request
        = (.ofFailure .noDatabaseSelected, server, s) := by
      rw [respond, hquestion]
      simp only [ask_of_no_database hcurrent]
    unfold dispatch
    split
    · rw [Session.database?, hcurrent, Option.bind_none]
    · simp [Request.reads] at hreads
    · rw [hrespond]
  · change (Reply.single (loadRules s source).1, server, (loadRules s source).2) = _
    rw [loadRules, hcurrent]
    rfl

/-- A request that writes is turned away when the database is open only to be read. -/
lemma dispatch_of_readOnly (hmode : s.mode = .readOnly) {db : Database}
    (hopen : s.database? server.catalog = some db) {request : Request}
    (hwrites : request.writes = true) :
    server.dispatch s r request = (.single (.ofFailure .readOnlyMode), server, s) :=
  dispatch_of_change r hwrites (change_of_readOnly hmode hopen)

end Server

end CodeGraph
