import Mathlib
import CodeGraph.Proofs.Server.Population

/-!
# Clients do not disturb each other

A request concerns the session from which it comes and the database that this session has
open, and the latter only if the session may write.  All other sessions and databases are as
they were, and a request that reads or writes without being allowed to is answered with its
failure and changes nothing at all (`Population.Reachable.isolation`).
-/

namespace CodeGraph.Population

open Catalog

variable {p : Population}

/-- What becomes of a population when a request is carried out. -/
lemma step_request {client : Nat} {conn : Connection}
    (hconn : p.connections[client]? = some conn) (r : Readings) (request : Request) :
    p.step (.request client r request)
      = ⟨(p.server.dispatch conn.session r request).2.1, p.connections.set client
          { conn with session := (p.server.dispatch conn.session r request).2.2 }⟩ := by
  change p.serve client (answer r request) = _
  unfold serve
  rw [hconn]
  rfl

/-- In every reachable population a request leaves all other connections as they were, and all
databases but the one that its session has open for changes, if the request is one that writes
and not a flush.  Names are given only to new databases, by requests to create or open them,
and are taken only from databases that are dropped while nobody uses them, and from ephemeral
ones that the session was the last to use.  A request to write is refused in a database that
is open to be read, and a request that needs a database is refused where none is open; then
nothing changes. -/
theorem Reachable.isolation (h : Reachable p) {client : Nat} {conn : Connection}
    (hconn : p.connections[client]? = some conn) (r : Readings) (request : Request) :
    (∀ other ≠ client,
      (p.step (.request client r request)).connections[other]? = p.connections[other]?) ∧
    (∀ handle db, p.server.catalog.database? handle = some db →
      ∃ db', (p.step (.request client r request)).server.catalog.database? handle = some db' ∧
        db'.name = db.name ∧ db'.ephemeral = db.ephemeral ∧
        (¬ (conn.session.current = some handle ∧ conn.session.mode = .readWrite ∧
          request.writes = true ∧ request ≠ .flush) → db.graph.SameData db'.graph)) ∧
    (∀ name handle, p.server.catalog.registered[name]? = some handle →
      (p.step (.request client r request)).server.catalog.registered[name]? = some handle ∨
      (request = .dropDatabase name ∧ p.users handle = 0) ∨
      (p.server.catalog.IsEphemeral handle ∧ conn.session.current = some handle ∧
        (p.step (.request client r request)).users handle = 0)) ∧
    (∀ name handle,
      (p.step (.request client r request)).server.catalog.registered[name]? = some handle →
      p.server.catalog.registered[name]? = some handle ∨
      p.server.catalog.database? handle = none ∧
        ((∃ ephemeral, request = .createDatabase name ephemeral) ∨
          ∃ mode, request = .openDatabase name mode)) ∧
    (request.writes = true → ∀ handle, conn.session.current = some handle →
      conn.session.mode = .readOnly → p.server.dispatch conn.session r request
        = (.single (.ofFailure .readOnlyMode), p.server, conn.session)) ∧
    (request.writes = true ∨ request.reads = true ∨
        (∃ source, request = .datalogLoadRules source) →
      conn.session.current = none → p.server.dispatch conn.session r request
        = (.single (.ofFailure .noDatabaseSelected), p.server, conn.session)) := by
  have hbalanced := h.balanced
  have hbalanced' := hbalanced
  rw [users_eq hconn] at hbalanced'
  obtain ⟨-, hbecomes⟩ :=
    (p.server.dispatch_transition conn.session r request).spec hbalanced'
  rw [step_request hconn]
  refine ⟨fun other hother => ?_, fun handle db hdb => ?_, fun name handle hname => ?_,
    fun name handle hname => ?_, fun hwrites handle hcurrent hmode => ?_,
    fun hrequest hcurrent => ?_⟩
  · exact List.getElem?_set_ne hother.symm
  · exact hbecomes.database hdb
  · by_cases hgone : (p.server.dispatch conn.session r request).2.1.catalog.registered[name]?
        = some handle
    · exact .inl hgone
    · rw [hbecomes.registered hname, not_not, Set.mem_union] at hgone
      rcases hgone with habandoned | hdropped
      · have hleft := Session.mem_abandons_iff.1 habandoned
        refine .inr (.inr ⟨hleft.1, habandoned.1, ?_⟩)
        rw [users_set hconn]
        exact hleft.2.2
      · obtain ⟨hrequest, hok⟩ := (hbalanced.mem_drops_iff hname).1 hdropped
        obtain ⟨found, hfound, hzero⟩ := hbalanced.users_eq_zero_of_dropDatabase hok
        obtain rfl := Option.some.inj (hname.symm.trans hfound)
        exact .inr (.inl ⟨hrequest, hzero⟩)
  · rcases hbecomes.added hname with hbefore | ⟨hnew, hmem⟩
    · exact .inl hbefore
    · exact .inr ⟨hnew, request.mem_names_iff.1 hmem⟩
  · obtain ⟨db, hdb, -⟩ := hbalanced'.inUse (hcurrent ▸ withSession_pos (p.others client) handle)
    have hopen : conn.session.database? p.server.catalog = some db := by
      rw [Session.database?, hcurrent]
      exact hdb
    exact Server.dispatch_of_readOnly r hmode hopen hwrites
  · exact Server.dispatch_of_no_database r hcurrent hrequest

/-- A connection is told by what it has open. -/
lemma exists_session (p : Population) (client : Nat) (current : Option Handle) (mode : AccessMode)
    (h : (p.connections[client]?).map (fun conn => (conn.session.current, conn.session.mode))
      = some (current, mode)) :
    ∃ conn, p.connections[client]? = some conn ∧ conn.session.current = current ∧
      conn.session.mode = mode := by
  obtain ⟨conn, hconn, hsession⟩ := Option.map_eq_some_iff.1 h
  exact ⟨conn, hconn, congrArg Prod.fst hsession, congrArg Prod.snd hsession⟩

/-- Of two clients that share a database, the one that may only read cannot remove what is in
it, the other one does not disturb the first, and a client without a database is told so. -/
theorem isolation_shared : Reachable shared ∧
    (∃ reader : Connection, shared.connections[1]? = some reader ∧ reader.session.current = some 0 ∧
      shared.server.dispatch reader.session atStart .clear
        = (.single (.ofFailure .readOnlyMode), shared.server, reader.session)) ∧
    (∃ writer : Connection, shared.connections[0]? = some writer ∧ writer.session.current = some 0 ∧
      (shared.step (.request 0 atStart .clear)).connections[1]? = shared.connections[1]?) ∧
    ∃ idle : Connection, shared.connections[2]? = some idle ∧
      shared.server.dispatch idle.session atStart .nodeCount
        = (.single (.ofFailure .noDatabaseSelected), shared.server, idle.session) := by
  obtain ⟨writer, hwriter, hwrites, -⟩ :=
    exists_session shared 0 (some 0) .readWrite (by decide +kernel)
  obtain ⟨reader, hreader, hreads, hmode⟩ :=
    exists_session shared 1 (some 0) .readOnly (by decide +kernel)
  obtain ⟨idle, hidle, hnone, -⟩ :=
    exists_session shared 2 none .readWrite (by decide +kernel)
  obtain ⟨hothers, -⟩ := reachable_shared.isolation hwriter atStart .clear
  obtain ⟨-, -, -, -, hrefused, -⟩ := reachable_shared.isolation hreader atStart .clear
  obtain ⟨-, -, -, -, -, hrefused'⟩ := reachable_shared.isolation hidle atStart .nodeCount
  exact ⟨reachable_shared, ⟨reader, hreader, hreads, hrefused rfl 0 hreads hmode⟩,
    ⟨writer, hwriter, hwrites, hothers 1 (by decide)⟩,
    idle, hidle, hrefused' (.inr (.inl rfl)) hnone⟩

end CodeGraph.Population
