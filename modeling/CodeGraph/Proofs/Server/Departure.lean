import Mathlib
import CodeGraph.Proofs.Server.Population

/-!
# A connection that has ended leaves nothing behind

A handler can end in many ways: nothing more arrives, reading fails, a reply cannot be sent or
not in time, or the server is told to stop.  In all of them it has handled some messages, one
after the other, and closed the connection once (`Unix.serve_released`,
`WebSocket.serve_released`).

What is true of a connection that is served (`InForce`) is kept by every message.  An ephemeral
database that the connection had open at any time is not forgotten: unless others use it, it is
the one that the connection has open or it is not registered (`Lapsed`).  Closing the connection
then leaves the databases with the users that they had before, and the counts of connections
where they were (`LeavesNothing`).
-/

namespace CodeGraph

open Catalog

/-! ### Counts of connections -/

section Counts

variable {server : Server} {transport : Transport}

lemma Metrics.connections_modifyConnections (m : Metrics) (transport other : Transport)
    (f : ConnectionCounts → ConnectionCounts) :
    (m.modifyConnections transport f).connections other
      = if other = transport then f (m.connections other) else m.connections other := by
  cases transport <;> cases other <;> rfl

lemma Metrics.connections_recordQuery (m : Metrics) (operation : String) (duration : UInt64)
    (now : Nat) : (m.recordQuery operation duration now).connections = m.connections := by
  unfold recordQuery
  split
  · dsimp only
    split <;> rfl
  · rfl

namespace Server

variable (server : Server) (s : Session) (r : Readings)

lemma change_metrics (change : Graph → Disk → Change) :
    (server.change s change).2.metrics = server.metrics := by
  unfold Server.change
  split
  · split <;> rfl
  · rfl

lemma afterChange_connections (request : Request) (response : Response) :
    (server.afterChange s r request response).1.metrics.connections
      = server.metrics.connections := by
  unfold afterChange
  split
  · rfl
  · split <;> rfl

lemma manage_metrics (request : Request) :
    (server.manage s r request).2.1.metrics = server.metrics := by
  cases request with
  | openDatabase name mode =>
    change (server.openDatabase s name (.ofName mode)).2.1.metrics = server.metrics
    unfold openDatabase
    split
    · split <;> rfl
    · rfl
  | _ => rfl

/-- No request counts as a connection. -/
lemma dispatch_connections (request : Request) :
    (server.dispatch s r request).2.1.metrics.connections = server.metrics.connections := by
  have hrespond : (server.respond s r request).2.1.metrics.connections
      = server.metrics.connections := by
    unfold respond
    split
    · rfl
    · next change _ _ =>
      dsimp only
      rw [afterChange_connections, change_metrics]
    · rw [manage_metrics]
  unfold dispatch
  split
  · split <;> rfl
  · rfl
  · exact hrespond

end Server

end Counts

/-! ### Messages one after the other -/

/-- A connection and the server after messages, whatever becomes of the replies. -/
def Connection.handleAll (readings : Nat → Readings) (first : Nat) :
    Connection × Server → List Bytes → Connection × Server
  | state, [] => state
  | (conn, server), message :: messages =>
    handleAll readings (first + 1) (conn.handle server (readings first) message).2 messages

namespace Connection

lemma handleAll_append (readings : Nat → Readings) (first : Nat) (state : Connection × Server)
    (messages later : List Bytes) : handleAll readings first state (messages ++ later)
      = handleAll readings (first + messages.length) (handleAll readings first state messages)
          later := by
  induction messages generalizing first state with
  | nil => rfl
  | cons message messages ih =>
    rw [List.cons_append, handleAll, ih, handleAll, List.length_cons]
    congr 1
    omega

variable (conn : Connection) (server : Server) (r : Readings) (message : Bytes)

/-- Handling a message is a transition, also if it is no request. -/
lemma handle_transition : ∃ request, Transition server.catalog conn.session request
    (conn.handle server r message).2.2.catalog (conn.handle server r message).2.1.session := by
  unfold handle
  split
  · exact ⟨.ping, .still (by simp) rfl⟩
  · next envelope _ =>
    exact ⟨envelope.request, server.dispatch_transition conn.session r envelope.request⟩

lemma handle_connections : (conn.handle server r message).2.2.metrics.connections
    = server.metrics.connections := by
  unfold handle
  split
  · rfl
  · next envelope _ =>
    dsimp only
    rw [Metrics.connections_recordQuery, Server.dispatch_connections]

/-- No message closes a connection. -/
lemma handle_state (h : conn.state ≠ .closed) :
    (conn.handle server r message).2.1.state ≠ .closed := by
  unfold handle
  split
  · exact h
  · dsimp only
    unfold stateAfter
    split
    · simp
    · simp
    · exact h

end Connection

/-! ### While a connection is served -/

/-- No database is ever gone. -/
lemma Transition.isSome_database? {c c' : Catalog} {s s' : Session} {request : Request}
    (h : Transition c s request c' s') {others : Handle → Nat}
    (hbalanced : c.Balanced (withSession others s.current)) {handle : Handle}
    (hthere : (c.database? handle).isSome) : (c'.database? handle).isSome := by
  obtain ⟨db, hdb⟩ := Option.isSome_iff_exists.1 hthere
  obtain ⟨db', hdb', -⟩ := (h.spec hbalanced).2.database hdb
  rw [hdb', Option.isSome_some]

namespace Population

/-- What is true of a connection that is served, while the sessions of a population stay as they
are: it is not closed, it is counted among the users of its database, all databases are still
there, and it is counted once among the connections of its transport. -/
structure InForce (p : Population) (transport : Transport) (conn : Connection)
    (server : Server) : Prop where
  state : conn.state ≠ .closed
  balanced : server.catalog.Balanced (withSession p.users conn.session.current)
  lasting : ∀ handle, (p.server.catalog.database? handle).isSome →
    (server.catalog.database? handle).isSome
  connections : ∀ other, server.metrics.connections other
    = if other = transport then (p.server.metrics.connections other).opening
      else p.server.metrics.connections other

/-- An ephemeral database that no other session uses is open in this session, or it is not
registered. -/
structure Lapsed (p : Population) (handle : Handle) (c : Catalog) (s : Session) : Prop where
  unused : p.users handle = 0
  ephemeral : c.IsEphemeral handle
  openOrGone : s.current = some handle ∨ ∀ name : String, c.registered[name]? ≠ some handle

variable {p : Population} {transport : Transport} {conn : Connection} {server : Server}

/-- A session that leaves such a database takes its name away, and no other gets it back. -/
lemma Lapsed.transition {handle : Handle} {c c' : Catalog} {s s' : Session} {request : Request}
    (h : p.Lapsed handle c s) (hbalanced : c.Balanced (withSession p.users s.current))
    (htransition : Transition c s request c' s') : p.Lapsed handle c' s' := by
  obtain ⟨db, hdb, hephemeral⟩ := h.ephemeral
  obtain ⟨-, hbecomes⟩ := htransition.spec hbalanced
  refine ⟨h.unused, (hbecomes.isEphemeral_iff hdb).2 h.ephemeral, ?_⟩
  by_cases hopen : s'.current = some handle
  · exact .inl hopen
  · refine .inr fun name hname => ?_
    rcases hbecomes.added hname with hbefore | ⟨hmissing, -⟩
    · have hwas : s.current = some handle :=
        h.openOrGone.resolve_right fun hgone => hgone name hbefore
      have hkept := (hbecomes.registered hbefore).1 hname
      rw [Set.mem_union, not_or] at hkept
      refine hkept.1 (Session.mem_abandons_iff.2 ⟨h.ephemeral, ?_, ?_⟩)
      · rw [hwas]
        exact withSession_pos p.users handle
      · simp [withSession, h.unused, hopen]
    · rw [hmissing] at hdb
      cases hdb

namespace InForce

lemma accept (h : p.Reachable) (id : Nat) (transport : Transport) :
    p.InForce transport (p.server.accept id transport).1 (p.server.accept id transport).2 where
  state := by simp [Server.accept, Connection.start, Connection.accepted]
  balanced := by
    have hnobody : (p.server.accept id transport).1.session.current = none := rfl
    rw [hnobody, withSession_none]
    exact h.balanced
  lasting _ hthere := hthere
  connections other := Metrics.connections_modifyConnections _ transport other _

lemma attachDefault (h : p.InForce transport conn server) :
    p.InForce transport (server.attachDefault conn).1 (server.attachDefault conn).2 where
  state := by
    have hstate : (server.attachDefault conn).1.state = conn.state := by
      unfold Server.attachDefault Connection.openDefault
      rcases server.catalog.getDatabase defaultDatabase with ⟨failure | handle, catalog⟩
      · rfl
      · rfl
    rw [hstate]
    exact h.state
  balanced := ((attachDefault_transition server conn).spec h.balanced).1
  lasting handle hthere :=
    (attachDefault_transition server conn).isSome_database? h.balanced (h.lasting handle hthere)
  connections := h.connections

lemma handle (h : p.InForce transport conn server) (r : Readings) (message : Bytes) :
    p.InForce transport (conn.handle server r message).2.1
      (conn.handle server r message).2.2 where
  state := conn.handle_state server r message h.state
  balanced := by
    obtain ⟨request, htransition⟩ := conn.handle_transition server r message
    exact (htransition.spec h.balanced).1
  lasting handle hthere := by
    obtain ⟨request, htransition⟩ := conn.handle_transition server r message
    exact htransition.isSome_database? h.balanced (h.lasting handle hthere)
  connections other := by
    rw [conn.handle_connections server r message]
    exact h.connections other

/-- All messages keep a connection in force, and what has lapsed stays so. -/
lemma handleAll (h : p.InForce transport conn server) (readings : Nat → Readings) (first : Nat)
    (messages : List Bytes) :
    p.InForce transport (Connection.handleAll readings first (conn, server) messages).1
        (Connection.handleAll readings first (conn, server) messages).2 ∧
      ∀ handle, p.Lapsed handle server.catalog conn.session →
        p.Lapsed handle (Connection.handleAll readings first (conn, server) messages).2.catalog
          (Connection.handleAll readings first (conn, server) messages).1.session := by
  induction messages generalizing conn server first with
  | nil => exact ⟨h, fun _ hlapsed => hlapsed⟩
  | cons message messages ih =>
    obtain ⟨request, htransition⟩ := conn.handle_transition server (readings first) message
    obtain ⟨hforce, hlapsed⟩ := ih (h.handle (readings first) message) (first + 1)
    exact ⟨hforce, fun handle hbefore =>
      hlapsed handle (hbefore.transition h.balanced htransition)⟩

/-- What has lapsed after some of the messages has lapsed after all of them. -/
lemma lapsed_of_take (h : p.InForce transport conn server) {readings : Nat → Readings}
    {messages : List Bytes} {n : Nat} {conn' : Connection} {server' : Server}
    (hrun : Connection.handleAll readings 0 (conn, server) (messages.take n) = (conn', server'))
    {handle : Handle} (hthen : p.Lapsed handle server'.catalog conn'.session) :
    p.Lapsed handle (Connection.handleAll readings 0 (conn, server) messages).2.catalog
      (Connection.handleAll readings 0 (conn, server) messages).1.session := by
  obtain ⟨hforce, -⟩ := h.handleAll readings 0 (messages.take n)
  rw [hrun] at hforce
  obtain ⟨-, hlater⟩ := hforce.handleAll readings (0 + (messages.take n).length) (messages.drop n)
  have hwhole := Connection.handleAll_append readings 0 (conn, server) (messages.take n)
    (messages.drop n)
  rw [List.take_append_drop, hrun] at hwhole
  rw [hwhole]
  exact hlater handle hthen

end InForce

end Population

/-! ### How a handler ends -/

/-- What a handler leaves after it has closed a connection, and perhaps stopped the server: only
the files and other numbers than those of connections may differ from what closing gives. -/
structure Service.Released (s : Service) (transport : Transport) (state : Connection × Server) :
    Prop where
  connection : s.connection = (state.2.release state.1 transport).1
  catalog : ∃ disk, s.server.catalog
    = { (state.2.release state.1 transport).2.catalog with disk := disk }
  connections : s.server.metrics.connections
    = (state.2.release state.1 transport).2.metrics.connections

namespace Service

variable (s : Service) (transport : Transport)

lemma released_finish : (s.finish transport).Released transport (s.connection, s.server) :=
  ⟨rfl, ⟨_, rfl⟩, rfl⟩

lemma released_terminate :
    (s.finish transport).terminate.Released transport (s.connection, s.server) := by
  refine ⟨rfl, ?_, ?_⟩
  · change ∃ disk, (Server.removeSocket _).catalog = _
    unfold Server.removeSocket
    split
    · split
      · exact ⟨_, rfl⟩
      · exact ⟨_, rfl⟩
    · exact ⟨_, rfl⟩
  · change (Server.removeSocket _).metrics.connections = _
    unfold Server.removeSocket
    split
    · split <;> rfl
    · rfl

lemma send_eq (deliveries : Nat → Delivery) (frames : List Bytes) :
    (s.send deliveries frames).2.connection = s.connection ∧
      (s.send deliveries frames).2.server = s.server ∧
      (s.send deliveries frames).2.handled = s.handled := by
  induction frames generalizing s with
  | nil => exact ⟨rfl, rfl, rfl⟩
  | cons frame frames ih =>
    simp only [send]
    split
    · exact ih _
    · exact ⟨rfl, rfl, rfl⟩

/-- The number of replies that were not sent in time is none of connections. -/
lemma released_timedOut :
    ({ s with server := { s.server with
        metrics := s.server.metrics.recordSendTimeout } }.finish transport).Released transport
      (s.connection, s.server) := by
  refine ⟨rfl, ⟨_, rfl⟩, ?_⟩
  cases transport <;> rfl

/-- A service has handled these messages since another, and then ended. -/
def EndsAfter (readings : Nat → Readings) (transport : Transport) (begun ended : Service) : Prop :=
  ∃ messages, ended.handled = begun.handled ++ messages ∧ ended.Released transport
    (Connection.handleAll readings begun.handled.length (begun.connection, begun.server) messages)

variable {s transport} {readings : Nat → Readings} {ended : Service}

/-- A service that ends at once has handled nothing more. -/
lemma EndsAfter.of_released (hhandled : ended.handled = s.handled)
    (h : ended.Released transport (s.connection, s.server)) :
    EndsAfter readings transport s ended :=
  ⟨[], by rw [hhandled, List.append_nil], h⟩

/-- One more message in front, whatever became of the replies to it. -/
lemma EndsAfter.handle (payload : Bytes) (deliveries : Nat → Delivery) (frames : List Bytes)
    (h : EndsAfter readings transport
      ((s.handle (readings s.handled.length) payload).2.send deliveries frames).2 ended) :
    EndsAfter readings transport s ended := by
  obtain ⟨messages, hhandled, hreleased⟩ := h
  obtain ⟨hconnection, hserver, hsent⟩ :=
    (s.handle (readings s.handled.length) payload).2.send_eq deliveries frames
  rw [hconnection, hserver, hsent] at hreleased
  rw [hsent] at hhandled
  refine ⟨payload :: messages, ?_, ?_⟩
  · rw [hhandled]
    exact List.append_assoc s.handled [payload] messages
  · have hlength : (s.handle (readings s.handled.length) payload).2.handled.length
        = s.handled.length + 1 := List.length_append
    rw [hlength] at hreleased
    exact hreleased

end Service

open Service (EndsAfter)

/-- The handler of the local socket ends by closing the connection, after it has handled some
messages. -/
theorem Unix.serve_endsAfter (readings : Nat → Readings) (deliveries : Nat → Delivery)
    (s : Service) (inbound : List Inbound) :
    EndsAfter readings .unix s (serve readings deliveries s inbound) := by
  induction inbound generalizing s with
  | nil => exact .of_released rfl (s.released_finish .unix)
  | cons next inbound ih =>
    cases next with
    | ended => exact .of_released rfl (s.released_finish .unix)
    | failed => exact .of_released rfl (s.released_finish .unix)
    | message payload =>
      apply EndsAfter.handle payload deliveries
        (s.handle (readings s.handled.length) payload).1.frames
      unfold serve
      dsimp only
      split
      · exact .of_released rfl (Service.released_terminate _ .unix)
      · exact ih _
      · exact .of_released rfl (Service.released_finish _ .unix)

/-- The handler of WebSocket connections does so too. -/
theorem WebSocket.serve_endsAfter (readings : Nat → Readings) (deliveries : Nat → Delivery)
    (s : Service) (inbound : List Inbound) :
    EndsAfter readings .webSocket s (serve readings deliveries s inbound) := by
  induction inbound generalizing s with
  | nil => exact .of_released rfl (s.released_finish .webSocket)
  | cons next inbound ih =>
    cases next with
    | ended => exact .of_released rfl (s.released_finish .webSocket)
    | failed => exact .of_released rfl (s.released_finish .webSocket)
    | message payload =>
      apply EndsAfter.handle payload deliveries
        (s.handle (readings s.handled.length) payload).1.frames
      unfold serve
      dsimp only
      split
      · exact .of_released rfl (Service.released_terminate _ .webSocket)
      · exact ih _
      · exact .of_released rfl (Service.released_timedOut _ .webSocket)
      · exact .of_released rfl (Service.released_finish _ .webSocket)

/-! ### What is left behind -/

namespace Population

/-- What is left of a connection that was served over a transport after it had been accepted by
the server of a population.  The connection is closed and has no database.  All databases that
were there are still there, and each has as many connections as before, the sessions that have it
open.  Whenever an ephemeral database was open in the connection after some of the messages, and
no other session has it open, it is not registered any more.  One more connection has been opened
over the transport, and as many as before are active. -/
structure LeavesNothing (p : Population) (transport : Transport) (readings : Nat → Readings)
    (begun ended : Service) : Prop where
  closed : ended.connection.state = .closed
  left : ended.connection.session.current = none
  counted : ∀ handle db, ended.server.catalog.database? handle = some db →
    db.connections = p.users handle
  unchanged : ∀ handle db, p.server.catalog.database? handle = some db →
    ∃ db', ended.server.catalog.database? handle = some db' ∧ db'.connections = db.connections
  unregistered : ∀ n conn server, Connection.handleAll readings 0
      (begun.connection, begun.server) (ended.handled.take n) = (conn, server) →
    ∀ handle, conn.session.current = some handle → server.catalog.IsEphemeral handle →
      p.users handle = 0 → ∀ name : String, ended.server.catalog.registered[name]? ≠ some handle
  opened : ended.server.metrics.connections transport
    = ⟨(p.server.metrics.connections transport).opened + 1,
      (p.server.metrics.connections transport).active⟩
  others : ∀ other ≠ transport,
    ended.server.metrics.connections other = p.server.metrics.connections other

variable {p : Population} {transport : Transport} {readings : Nat → Readings}

/-- A connection that is in force before any message leaves nothing behind when it has ended. -/
lemma InForce.leavesNothing (h : p.Reachable) {begun ended : Service}
    (hforce : p.InForce transport begun.connection begun.server) (hbegun : begun.handled = [])
    (hended : EndsAfter readings transport begun ended) :
    p.LeavesNothing transport readings begun ended := by
  obtain ⟨messages, hhandled, hreleased⟩ := hended
  rw [hbegun, List.nil_append] at hhandled
  subst hhandled
  rw [hbegun, List.length_nil] at hreleased
  obtain ⟨hconnection, ⟨disk, hcatalog⟩, hconnections⟩ := hreleased
  obtain ⟨hlast, -⟩ := hforce.handleAll readings 0 ended.handled
  set last := Connection.handleAll readings 0 (begun.connection, begun.server) ended.handled
  rw [Server.release_eq _ hlast.state] at hconnection hcatalog hconnections
  obtain ⟨hbalanced, hbecomes, hnone⟩ := Session.closeDatabase_spec hlast.balanced
  have hdatabase (handle : Handle) : ended.server.catalog.database? handle
      = (last.1.session.closeDatabase last.2.catalog).2.database? handle := by
    rw [hcatalog]
    rfl
  have hcounted : ∀ handle db, ended.server.catalog.database? handle = some db →
      db.connections = p.users handle := by
    intro handle db hdb
    rw [hdatabase] at hdb
    exact hbalanced.counted hdb
  refine ⟨?_, ?_, hcounted, ?_, ?_, ?_, ?_⟩
  · rw [hconnection]
  · rw [hconnection]
    exact hnone
  · intro handle db hdb
    have hthere := hlast.lasting handle (by rw [hdb, Option.isSome_some])
    obtain ⟨between, hbetween⟩ := Option.isSome_iff_exists.1 hthere
    obtain ⟨db', hdb', -⟩ := hbecomes.database hbetween
    rw [← hdatabase] at hdb'
    exact ⟨db', hdb', by rw [hcounted handle db' hdb', h.balanced.counted hdb]⟩
  · intro n conn server hrun handle hcurrent hephemeral hunused name hname
    have hthen : p.Lapsed handle server.catalog conn.session :=
      ⟨hunused, hephemeral, .inl hcurrent⟩
    have hlapsed := (hforce.lapsed_of_take hrun hthen).transition hlast.balanced .closed
    rcases hlapsed.openOrGone with hopen | hgone
    · rw [hnone] at hopen
      cases hopen
    · apply hgone name
      rw [hcatalog] at hname
      exact hname
  · rw [hconnections]
    change (last.2.metrics.modifyConnections transport .closing).connections transport = _
    rw [Metrics.connections_modifyConnections, if_pos rfl, hlast.connections, if_pos rfl]
    rfl
  · intro other hother
    rw [hconnections]
    change (last.2.metrics.modifyConnections transport .closing).connections other = _
    rw [Metrics.connections_modifyConnections, if_neg hother, hlast.connections, if_neg hother]

/-- A connection to a server that has other connections leaves nothing behind, whatever arrives
over it and whatever becomes of the replies: over the local socket, where it may be attached to
the default database first, and over WebSocket. -/
theorem Reachable.handlers_leave_nothing (h : p.Reachable) (id : Nat) (readings : Nat → Readings)
    (deliveries : Nat → Delivery) (inbound : List Inbound) :
    p.LeavesNothing .unix readings (Service.start p.server id .unix)
      (Unix.handle p.server id false readings deliveries inbound) ∧
    p.LeavesNothing .unix readings (Service.start p.server id .unix).openDefault
      (Unix.handle p.server id true readings deliveries inbound) ∧
    p.LeavesNothing .webSocket readings (Service.start p.server id .webSocket)
      (WebSocket.handle p.server id readings deliveries inbound) := by
  refine ⟨?_, ?_, ?_⟩
  · apply InForce.leavesNothing h (InForce.accept h id .unix) rfl
    exact Unix.serve_endsAfter readings deliveries _ inbound
  · apply InForce.leavesNothing h (InForce.accept h id .unix).attachDefault rfl
    exact Unix.serve_endsAfter readings deliveries _ inbound
  · apply InForce.leavesNothing h (InForce.accept h id .webSocket) rfl
    exact WebSocket.serve_endsAfter readings deliveries _ inbound

/-! ### A connection that is dropped -/

/-- A server with one client and an ephemeral database that nobody has open. -/
def idle : Population :=
  [.accept .unix, .request 0 atStart (.createDatabase "shared" true)].foldl step fresh

lemma reachable_idle : idle.Reachable :=
  (Reachable.start rfl).steps _

/-- A request to open that database. -/
def openShared : Bytes :=
  (Envelope.mk none (.openDatabase "shared" "rw")).encode

/-- What is left of a WebSocket connection that opened the database and could not be sent the
reply in time. -/
def dropped : Service :=
  WebSocket.handle idle.server 1 (fun _ => atStart) (fun _ => .timedOut)
    [.message openShared, .message openShared]

/-- The connection and the server before the reply was sent. -/
def opened : Connection × Server :=
  let begun := Service.start idle.server 1 .webSocket
  Connection.handleAll (fun _ => atStart) 0 (begun.connection, begun.server) [openShared]

theorem handlers_leave_nothing_dropped : idle.Reachable ∧
    idle.server.catalog.registered["shared"]? = some 0 ∧ dropped.handled = [openShared] ∧
    dropped.connection.state = .closed ∧ dropped.connection.session.current = none ∧
    dropped.server.catalog.registered["shared"]? ≠ some 0 ∧
    dropped.server.metrics.connections .webSocket = ⟨1, 0⟩ ∧
    dropped.server.metrics.connections .unix = ⟨1, 1⟩ := by
  obtain ⟨-, -, hleft⟩ := reachable_idle.handlers_leave_nothing 1 (fun _ => atStart)
    (fun _ => .timedOut) [.message openShared, .message openShared]
  change idle.LeavesNothing .webSocket _ _ dropped at hleft
  have hhandled : dropped.handled = [openShared] := by decide +kernel
  -- After its first message the connection had the database open.
  have hopen : (opened.1.session.current, (opened.2.catalog.database? 0).map Database.ephemeral)
      = (some 0, some true) := by decide +kernel
  obtain ⟨hcurrent, hkind⟩ := Prod.mk.inj hopen
  obtain ⟨db, hdb, hephemeral⟩ := Option.map_eq_some_iff.1 hkind
  have hrun : Connection.handleAll (fun _ => atStart) 0
      ((Service.start idle.server 1 .webSocket).connection,
        (Service.start idle.server 1 .webSocket).server) (dropped.handled.take 1) = opened := by
    rw [hhandled]
    rfl
  have hunused : idle.users 0 = 0 := by decide +kernel
  refine ⟨reachable_idle, by decide +kernel, hhandled, hleft.closed, hleft.left,
    hleft.unregistered 1 _ _ hrun 0 hcurrent ⟨db, hdb, hephemeral⟩ hunused "shared", ?_, ?_⟩
  · rw [hleft.opened]
    decide +kernel
  · rw [hleft.others .unix (by decide)]
    decide +kernel

end Population

end CodeGraph
