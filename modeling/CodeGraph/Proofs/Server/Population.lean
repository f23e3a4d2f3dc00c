import Mathlib
import CodeGraph.Proofs.Server.Transition
import CodeGraph.Server.Handler

/-!
# A server and all its connections

A population is a server with the connections that were made to it, and its runs are sequences
of `Event`s in any order: connections come, are attached to the default database, send
requests and go, and the files change from outside.

The server counts the users of each database in the database itself; `Population.users` counts
them by looking at all sessions.  In every reachable population the two agree
(`Reachable.balanced`), since every event is at most one `Transition` of one session.

* `Reachable.accounting` : who counts, what is in use, and when names are given up.
-/

namespace CodeGraph

open Catalog

/-- Closing a connection that is not closed makes its session leave the database. -/
lemma Server.release_eq (server : Server) {conn : Connection} (h : conn.state ≠ .closed)
    (transport : Transport) : server.release conn transport
      = (⟨(conn.session.closeDatabase server.catalog).1, .closed⟩,
        { server.withCatalog (conn.session.closeDatabase server.catalog).2 with
          metrics := server.metrics.connectionClosed transport }) := by
  unfold release Connection.beginClose Connection.close
  rw [if_neg h, if_neg (by simp)]
  rfl

/-- A server with all connections that were made to it, the closed ones among them. -/
structure Population where
  server : Server
  connections : List Connection

namespace Population

/-- What happens at a server; a connection is told by its place. -/
inductive Event where
  | accept (transport : Transport)
  | attachDefault (client : Nat)
  | request (client : Nat) (r : Readings) (request : Request)
  | close (client : Nat)
  | outside (disk : Disk)

/-- Carries out a request that came over a connection. -/
def answer (r : Readings) (request : Request) (server : Server) (conn : Connection) :
    Connection × Server :=
  let (_, server, session) := server.dispatch conn.session r request
  ({ conn with session := session }, server)

/-- Closes a connection. -/
def hangUp (server : Server) (conn : Connection) : Connection × Server :=
  server.release conn conn.session.transport

/-- Serves one connection, if it is there. -/
def serve (p : Population) (client : Nat) (f : Server → Connection → Connection × Server) :
    Population :=
  match p.connections[client]? with
  | some conn =>
    let (conn, server) := f p.server conn
    ⟨server, p.connections.set client conn⟩
  | none => p

/-- A population after an event. -/
def step (p : Population) : Event → Population
  | .accept transport =>
    let (conn, server) := p.server.accept p.server.nextClient transport
    ⟨{ server with nextClient := server.nextClient + 1 }, p.connections ++ [conn]⟩
  | .attachDefault client => p.serve client Server.attachDefault
  | .request client r request => p.serve client (answer r request)
  | .close client => p.serve client hangUp
  | .outside disk =>
    { p with server := p.server.withCatalog { p.server.catalog with disk := disk } }

/-- The populations that a new server can get to, with a default database or without. -/
inductive Reachable : Population → Prop
  | start {server : Server} {base : Path} {disk : Disk}
      (h : server.catalog = .empty base disk) : Reachable ⟨server, []⟩
  | startDefault {server : Server} {base path : Path} {disk : Disk}
      (h : server.catalog = ((Catalog.empty base disk).createDefault path).2) :
      Reachable ⟨server, []⟩
  | step {p : Population} (event : Event) : Reachable p → Reachable (p.step event)

/-- What can be got to stays so after more events. -/
lemma Reachable.steps {p : Population} (h : Reachable p) (events : List Event) :
    Reachable (events.foldl Population.step p) :=
  List.foldlRecOn events Population.step h fun _ h event _ => .step event h

/-- How many sessions have a database open. -/
def users (p : Population) (handle : Handle) : Nat :=
  p.connections.countP fun conn => conn.session.current == some handle

/-- How many sessions but one have a database open. -/
def others (p : Population) (client : Nat) (handle : Handle) : Nat :=
  (p.connections.eraseIdx client).countP fun conn => conn.session.current == some handle

/-- Whether an event is a request to drop the database of a name. -/
def Drops (p : Population) (name : String) (event : Event) : Prop :=
  ∃ client < p.connections.length, ∃ r, event = .request client r (.dropDatabase name)

variable {p : Population}

/-- The users of a database are those among the others and the session itself. -/
lemma users_eq {client : Nat} {conn : Connection} (hconn : p.connections[client]? = some conn) :
    p.users = withSession (p.others client) conn.session.current := by
  obtain ⟨hclient, rfl⟩ := List.getElem?_eq_some_iff.1 hconn
  funext handle
  have hperm := (List.getElem_cons_eraseIdx_perm hclient).countP_eq
    fun conn : Connection => conn.session.current == some handle
  rw [users, ← hperm, List.countP_cons, withSession, others]
  simp

/-- The same users remain among the others, whatever the session does. -/
lemma users_set {client : Nat} {conn conn' : Connection} {server : Server}
    (hconn : p.connections[client]? = some conn) :
    users ⟨server, p.connections.set client conn'⟩
      = withSession (p.others client) conn'.session.current := by
  obtain ⟨hclient, -⟩ := List.getElem?_eq_some_iff.1 hconn
  have hset : (p.connections.set client conn')[client]? = some conn' := by
    rw [List.getElem?_set_self hclient]
  rw [users_eq hset]
  congr 1
  funext handle
  rw [others, others, List.eraseIdx_set_eq]

/-- What an event can be: it leaves databases and sessions alone, or it is a transition of one
session. -/
inductive Effect (p : Population) (event : Event) : Prop
  | aside (disk : Disk)
      (hcatalog : (p.step event).server.catalog = { p.server.catalog with disk := disk })
      (husers : (p.step event).users = p.users) (hdrops : ∀ name, ¬ p.Drops name event)
  | moved {client : Nat} {conn conn' : Connection} {request : Request}
      (hbefore : p.users = withSession (p.others client) conn.session.current)
      (hafter : (p.step event).users = withSession (p.others client) conn'.session.current)
      (htransition : Transition p.server.catalog conn.session request
        (p.step event).server.catalog conn'.session)
      (hdrops : ∀ name, p.Drops name event ↔ request = .dropDatabase name)

/-- Serving a connection by a transition has such an effect. -/
lemma effect_of_serve {event : Event} (client : Nat)
    {f : Server → Connection → Connection × Server} (request : Request)
    (hstep : p.step event = p.serve client f)
    (htransition : ∀ conn, Transition p.server.catalog conn.session request
      (f p.server conn).2.catalog (f p.server conn).1.session)
    (hdrops : ∀ name, p.Drops name event ↔
      client < p.connections.length ∧ request = .dropDatabase name) : p.Effect event := by
  unfold serve at hstep
  cases hconn : p.connections[client]? with
  | none =>
    rw [hconn] at hstep
    -- There is no such connection, so nothing happens.
    refine .aside p.server.catalog.disk ?_ ?_ fun name hdrop => ?_
    · rw [hstep]
    · rw [hstep]
    · have hclient := ((hdrops name).1 hdrop).1
      rw [List.getElem?_eq_none_iff] at hconn
      omega
  | some conn =>
    rw [hconn] at hstep
    obtain ⟨hclient, -⟩ := List.getElem?_eq_some_iff.1 hconn
    have hafter : (p.step event).users
        = withSession (p.others client) (f p.server conn).1.session.current := by
      rw [hstep]
      exact users_set hconn
    have hmoved : Transition p.server.catalog conn.session request
        (p.step event).server.catalog (f p.server conn).1.session := by
      rw [hstep]
      exact htransition conn
    exact .moved (users_eq hconn) hafter hmoved fun name => by
      rw [hdrops name, and_iff_right hclient]

/-- Attaching a connection to the default database is like opening it. -/
lemma attachDefault_transition (server : Server) (conn : Connection) :
    Transition server.catalog conn.session (.openDatabase defaultDatabase "rw")
      (server.attachDefault conn).2.catalog (server.attachDefault conn).1.session := by
  unfold Server.attachDefault Connection.openDefault
  cases hfound : server.catalog.getDatabase defaultDatabase with
  | mk result catalog =>
    cases result with
    | ok handle => exact .opened hfound
    | error failure =>
      obtain rfl := getDatabase_error hfound
      exact .still (by simp) rfl

/-- Closing a connection is like leaving the database, unless it is closed already. -/
lemma hangUp_transition (server : Server) (conn : Connection) :
    Transition server.catalog conn.session .closeDatabase
      (hangUp server conn).2.catalog (hangUp server conn).1.session := by
  by_cases hclosed : conn.state = .closed
  · unfold hangUp Server.release Connection.close Connection.beginClose
    rw [if_pos hclosed, if_pos hclosed]
    exact .still (by simp) rfl
  · rw [hangUp, Server.release_eq server hclosed]
    exact .closed

/-- Every event has one of these effects. -/
lemma effect (p : Population) (event : Event) : p.Effect event := by
  cases event with
  | accept transport =>
    refine .aside p.server.catalog.disk rfl ?_ (by simp [Drops])
    funext handle
    have hnobody : (Connection.start p.server.nextClient transport).accepted.session.current
        = none := rfl
    change (p.connections ++ [(Connection.start _ _).accepted]).countP _ = p.connections.countP _
    rw [List.countP_append, List.countP_singleton, hnobody]
    rfl
  | attachDefault client =>
    exact effect_of_serve client (.openDatabase defaultDatabase "rw") rfl
      (attachDefault_transition p.server) (by simp [Drops])
  | request client r request =>
    have htransition (conn : Connection) : Transition p.server.catalog conn.session request
        (answer r request p.server conn).2.catalog (answer r request p.server conn).1.session :=
      p.server.dispatch_transition conn.session r request
    exact effect_of_serve client request rfl htransition (by simp [Drops])
  | close client =>
    exact effect_of_serve client .closeDatabase rfl (hangUp_transition p.server) (by simp [Drops])
  | outside disk => exact .aside disk rfl rfl (by simp [Drops])

/-- Every event keeps the count of users. -/
lemma balanced_step (h : p.server.catalog.Balanced p.users) (event : Event) :
    (p.step event).server.catalog.Balanced (p.step event).users := by
  cases p.effect event with
  | aside disk hcatalog husers hdrops =>
    rw [hcatalog, husers]
    exact h.withDisk disk
  | moved hbefore hafter htransition hdrops =>
    rw [hbefore] at h
    rw [hafter]
    exact (htransition.spec h).1

/-- In a reachable population the server has counted the users. -/
lemma Reachable.balanced (h : Reachable p) : p.server.catalog.Balanced p.users := by
  induction h with
  | @start server base disk h =>
    change server.catalog.Balanced fun _ => 0
    rw [h]
    exact balanced_empty base disk
  | @startDefault server base path disk h =>
    change server.catalog.Balanced fun _ => 0
    rw [h]
    exact Balanced.createDefault base path disk
  | step event _ ih => exact balanced_step ih event

/-! ### Names given up -/

/-- A name is given up when an ephemeral database loses its last user, and when a database is
dropped; then only. -/
lemma registered_step (h : p.server.catalog.Balanced p.users) (event : Event) {name : String}
    {handle : Handle} (hname : p.server.catalog.registered[name]? = some handle) :
    (p.step event).server.catalog.registered[name]? = some handle ↔
      ¬ (p.server.catalog.IsEphemeral handle ∧ 0 < p.users handle ∧
          (p.step event).users handle = 0) ∧
        ¬ (p.Drops name event ∧ (p.server.catalog.dropDatabase name).1 = .ok ()) := by
  cases p.effect event with
  | aside disk hcatalog husers hdrops =>
    rw [hcatalog, husers]
    have hnever : ¬ (0 < p.users handle ∧ p.users handle = 0) := by omega
    simp [hname, hdrops name, hnever]
  | @moved client conn conn' request hbefore hafter htransition hdrops =>
    rw [hbefore] at h
    obtain ⟨-, hbecomes⟩ := htransition.spec h
    rw [hbecomes.registered hname, Set.mem_union, not_or]
    rw [hbefore, hafter, hdrops name, Session.mem_abandons_iff, h.mem_drops_iff hname]

/-- In every reachable population the count of connections of each database is the number of
sessions that have it open, and a database that is open is registered under its name.
Dropping a database is refused without a trace when it is not registered or in use, and
succeeds only for one that is registered and not in use.  A persistent database gives up its
name only when it is dropped, and an ephemeral one, unless it is dropped, exactly when its
last user leaves it. -/
theorem Reachable.accounting (h : Reachable p) :
    (∀ handle db, p.server.catalog.database? handle = some db →
      db.connections = p.users handle) ∧
    (∀ conn ∈ p.connections, ∀ handle, conn.session.current = some handle →
      ∃ db, p.server.catalog.database? handle = some db ∧ 0 < db.connections ∧
        p.server.catalog.registered[db.name]? = some handle) ∧
    (∀ s r name,
      (p.server.catalog.registered[name]? = none →
        p.server.dispatch s r (.dropDatabase name)
          = (.single (.ofFailure (.databaseNotFound name)), p.server, s)) ∧
      (∀ handle, p.server.catalog.registered[name]? = some handle → 0 < p.users handle →
        p.server.dispatch s r (.dropDatabase name)
          = (.single (.ofFailure (.databaseInUse name)), p.server, s)) ∧
      ((p.server.dispatch s r (.dropDatabase name)).1 = .single .ok →
        ∃ handle, p.server.catalog.registered[name]? = some handle ∧ p.users handle = 0)) ∧
    ∀ event name handle db, p.server.catalog.registered[name]? = some handle →
      p.server.catalog.database? handle = some db →
      (db.ephemeral = false →
        (p.step event).server.catalog.registered[name]? ≠ some handle →
        p.Drops name event ∧ p.users handle = 0) ∧
      (db.ephemeral = true →
        ((p.step event).server.catalog.registered[name]? ≠ some handle ↔
          (p.Drops name event ∧ p.users handle = 0) ∨
            (0 < p.users handle ∧ (p.step event).users handle = 0))) := by
  have hbalanced := h.balanced
  refine ⟨fun handle db hdb => hbalanced.counted hdb, fun conn hconn handle hcurrent => ?_,
    fun s r name => ?_, fun event name handle db hname hdb => ?_⟩
  · have hused : 0 < p.users handle := List.countP_pos_iff.2 ⟨conn, hconn, by simp [hcurrent]⟩
    obtain ⟨db, hdb, hregistered⟩ := hbalanced.inUse hused
    exact ⟨db, hdb, (hbalanced.counted hdb).symm ▸ hused, hregistered⟩
  · have hdispatch : p.server.dispatch s r (.dropDatabase name)
        = (.single (Server.catalogResponse .ok (p.server.catalog.dropDatabase name).1),
          p.server.withCatalog (p.server.catalog.dropDatabase name).2, s) := rfl
    rw [hdispatch]
    rcases hbalanced.dropDatabase_cases name with ⟨hnone, heq⟩ | ⟨found, hfound, hused, heq⟩ |
      ⟨found, disk, hfound, hzero, -⟩
    · rw [heq, hnone]
      exact ⟨fun _ => rfl, by simp, fun hok => by cases hok⟩
    · rw [heq, hfound]
      exact ⟨by simp, fun _ _ _ => rfl, fun hok => by cases hok⟩
    · rw [hfound]
      refine ⟨by simp, fun handle hname hused => ?_, fun _ => ⟨found, rfl, hzero⟩⟩
      obtain rfl := Option.some.inj hname
      exact absurd hzero hused.ne'
  · have hstep := registered_step hbalanced event hname
    refine ⟨fun hpersistent hgone => ?_, fun hephemeral => ?_⟩
    · have hkind : ¬ p.server.catalog.IsEphemeral handle := by
        rintro ⟨found, hfound, hephemeral⟩
        obtain rfl := Option.some.inj (hdb.symm.trans hfound)
        simp [hpersistent] at hephemeral
      rw [ne_eq, hstep] at hgone
      simp only [hkind, false_and, not_false_eq_true, true_and, not_not] at hgone
      obtain ⟨found, hfound, hzero⟩ := hbalanced.users_eq_zero_of_dropDatabase hgone.2
      obtain rfl := Option.some.inj (hname.symm.trans hfound)
      exact ⟨hgone.1, hzero⟩
    · have hkind : p.server.catalog.IsEphemeral handle := ⟨db, hdb, hephemeral⟩
      rw [ne_eq, hstep, hbalanced.dropDatabase_eq_ok_iff hname hkind]
      tauto

/-! ### Two clients of one database -/

/-- A server without databases and connections. -/
def fresh : Population := ⟨⟨.empty ⟨"/dbs"⟩ .empty, .start false, none, 0⟩, []⟩

/-- Readings at the beginning of time. -/
def atStart : Readings := ⟨0, 0, 0, 0, 0, 0⟩

/-- Two clients share an ephemeral database, of which the second one may only read, and a third
client has none. -/
def sharing : List Event :=
  [.accept .unix, .accept .webSocket, .accept .unix,
    .request 0 atStart (.createDatabase "shared" true),
    .request 0 atStart (.openDatabase "shared" "rw"),
    .request 1 atStart (.openDatabase "shared" "ro")]

/-- The population in which two clients share a database. -/
def shared : Population := sharing.foldl step fresh

lemma reachable_shared : Reachable shared :=
  (Reachable.start rfl).steps sharing

theorem accounting_shared : Reachable shared ∧
    shared.server.catalog.registered["shared"]? = some 0 ∧ shared.users 0 = 2 ∧
    (∃ db, shared.server.catalog.database? 0 = some db ∧ db.ephemeral = true ∧
      db.connections = 2) ∧
    shared.server.dispatch (.start 2 .unix) atStart (.dropDatabase "shared")
      = (.single (.ofFailure (.databaseInUse "shared")), shared.server, .start 2 .unix) ∧
    (shared.step (.close 0)).server.catalog.registered["shared"]? = some 0 ∧
    ((shared.step (.close 0)).step (.close 1)).server.catalog.registered["shared"]? ≠ some 0 := by
  have hname : shared.server.catalog.registered["shared"]? = some 0 := by decide +kernel
  have husers : shared.users 0 = 2 := by decide +kernel
  have hkind : (shared.server.catalog.database? 0).map Database.ephemeral = some true := by
    decide +kernel
  obtain ⟨db, hdb, hephemeral⟩ := Option.map_eq_some_iff.1 hkind
  obtain ⟨hcount, -, hdrop, hstep⟩ := reachable_shared.accounting
  have hconnections : db.connections = 2 := (hcount 0 db hdb).trans husers
  have hrefused := (hdrop (.start 2 .unix) atStart "shared").2.1 0 hname (by omega)
  -- One of two users leaves, and the name stays.
  have hone : (shared.step (.close 0)).users 0 = 1 := by decide +kernel
  have hstays : (shared.step (.close 0)).server.catalog.registered["shared"]? = some 0 := by
    have hgone := (hstep (.close 0) "shared" 0 db hname hdb).2 hephemeral
    by_contra hleft
    rcases hgone.1 hleft with ⟨⟨_, _, _, hevent⟩, -⟩ | ⟨-, hnobody⟩
    · simp at hevent
    · omega
  -- The other one leaves, and the name goes.
  have hnobody : ((shared.step (.close 0)).step (.close 1)).users 0 = 0 := by decide +kernel
  have hkind' : ((shared.step (.close 0)).server.catalog.database? 0).map Database.ephemeral
      = some true := by decide +kernel
  obtain ⟨db', hdb', hephemeral'⟩ := Option.map_eq_some_iff.1 hkind'
  obtain ⟨-, -, -, hstep'⟩ := (Reachable.step (.close 0) reachable_shared).accounting
  have hgone := (hstep' (.close 1) "shared" 0 db' hstays hdb').2 hephemeral'
  exact ⟨reachable_shared, hname, husers, ⟨db, hdb, hephemeral, hconnections⟩, hrefused, hstays,
    hgone.2 (.inr ⟨by omega, hnobody⟩)⟩

end Population

end CodeGraph
