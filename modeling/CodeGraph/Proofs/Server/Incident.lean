import Mathlib
import CodeGraph.Proofs.Graph.Query
import CodeGraph.Proofs.Server.Databases

/-!
# Edges in both directions

Asked for the edges at a node in both directions, a server sends those that begin there and behind
them those that end there.  A loop is among both, so it is sent twice, and with a limit its second
copy takes the place of an edge that would have been sent.  The list in which every edge stands once
(`Graph.incidentEdges`) has the loops among the edges that begin at the node only; the two differ
exactly if a loop is among those that end there before the limit is reached
(`Population.Reachable.queryEdges_both`).
-/

namespace CodeGraph

/-! ### Limited lists -/

/-- The first members of a list are those of a part of it exactly if none of them is left out. -/
lemma take_eq_take_filter_iff {α : Type} (p : α → Bool) (n : Nat) (l : List α) :
    l.take n = (l.filter p).take n ↔ ∀ a ∈ l.take n, p a := by
  induction l generalizing n with
  | nil => simp
  | cons a l ih =>
    cases n with
    | zero => simp
    | succ n =>
      by_cases ha : p a
      · rw [List.filter_cons_of_pos ha, List.take_succ_cons, List.take_succ_cons, List.cons.injEq,
          and_iff_right rfl, ih, List.forall_mem_cons, and_iff_right ha]
      · rw [List.filter_cons_of_neg ha, List.take_succ_cons, List.forall_mem_cons]
        apply iff_of_false
        · intro heq
          -- What is first in the list would be a member of its part.
          have hmem : a ∈ (l.filter p).take (n + 1) := heq ▸ List.mem_cons_self
          exact ha (List.mem_filter.1 (List.mem_of_mem_take hmem)).2
        · intro hall
          exact ha hall.1

namespace Graph

/-- Leaving out edges of a second list makes no difference exactly if none of those is left out
that the limit allows behind the first list. -/
lemma limited_append_eq_iff (p : Edge → Bool) (limit : Option Nat) (first second : List Edge) :
    limited limit (first ++ second) = limited limit (first ++ second.filter p) ↔
      ∀ edge ∈ limited (limit.map (· - first.length)) second, p edge := by
  cases limit with
  | none =>
    rw [limited, limited, List.append_cancel_left_eq, eq_comm, List.filter_eq_self]
    rfl
  | some n =>
    rw [limited, limited, List.take_append, List.take_append, List.append_cancel_left_eq,
      take_eq_take_filter_iff]
    rfl

/-! ### Incident edges -/

/-- The edges at a node, of the types asked for: those that begin there, and behind them those
others that end there. -/
def incidentEdges (g : Graph) (id : NodeId) (types : Option (List String)) : List Edge :=
  (g.edgesWhere fun edge => edge.src == id && wantsType types edge.key.type) ++
    g.edgesWhere fun edge =>
      edge.dst == id && wantsType types edge.key.type && edge.src != id

namespace Consistent

variable {g : Graph} {id : NodeId} {types : Option (List String)} {edge : Edge}

lemma mem_incidentEdges (h : g.Consistent) : edge ∈ g.incidentEdges id types ↔
    g.edges[edge.key]? = some edge ∧ (edge.src = id ∨ edge.dst = id) ∧
      wantsType types edge.key.type := by
  rw [incidentEdges, List.mem_append, h.mem_edgesWhere, h.mem_edgesWhere]
  simp only [Bool.and_eq_true, beq_iff_eq, bne_iff_ne]
  by_cases hsrc : edge.src = id <;> simp [hsrc]

lemma nodup_incidentEdges (h : g.Consistent) (id : NodeId) (types : Option (List String)) :
    (g.incidentEdges id types).Nodup := by
  refine (h.increasing_edgesWhere _).nodup.append (h.increasing_edgesWhere _).nodup ?_
  intro edge houtgoing hincoming
  have hbegins := (h.mem_edgesWhere.1 houtgoing).2
  have hends := (h.mem_edgesWhere.1 hincoming).2
  simp only [Bool.and_eq_true, beq_iff_eq, bne_iff_ne] at hbegins hends
  exact hends.2 hbegins.1

/-- Each edge once are the outgoing edges with the incoming ones that are not loops. -/
lemma incidentEdges_eq (h : g.Consistent) (id : NodeId) (types : Option (List String)) :
    g.incidentEdges id types = g.outgoingEdges id types ++
      (g.incomingEdges id types).filter (·.src != id) := by
  rw [h.outgoingEdges_eq, h.incomingEdges_eq, incidentEdges]
  unfold edgesWhere
  rw [List.filter_filter]
  simp only [Bool.and_comm]

/-- In both lists one behind the other a loop stands twice, any other edge at the node once. -/
lemma count_bothDirections (h : g.Consistent) (hedge : edge ∈ g.incidentEdges id types) :
    (g.outgoingEdges id types ++ g.incomingEdges id types).count edge =
      if edge.src = edge.dst then 2 else 1 := by
  obtain ⟨hstored, hends, hwanted⟩ := h.mem_incidentEdges.1 hedge
  have hcount : ∀ p : Edge → Bool,
      (g.edgesWhere p).count edge = if p edge then 1 else 0 := by
    intro p
    split
    · next hp =>
      exact List.count_eq_one_of_mem (h.increasing_edgesWhere p).nodup
        (h.mem_edgesWhere.2 ⟨hstored, hp⟩)
    · next hp => exact List.count_eq_zero.2 fun hmem => hp (h.mem_edgesWhere.1 hmem).2
  rw [h.outgoingEdges_eq, h.incomingEdges_eq, List.count_append, hcount, hcount]
  simp only [hwanted, Bool.and_true, beq_iff_eq]
  rcases hends with rfl | rfl
  · by_cases hloop : edge.src = edge.dst
    · simp [hloop]
    · simp [hloop, Ne.symm hloop]
  · by_cases hloop : edge.src = edge.dst <;> simp [hloop]

end Consistent

end Graph

/-! ### What a server sends -/

lemma Server.dispatch_queryEdges_both {server : Server} {s : Session} {db : Database}
    (hopen : s.database? server.catalog = some db) (r : Readings) (id : String)
    (types : Option (List String)) (limit : Option Nat) :
    (server.dispatch s r (.queryEdges id "both" types limit)).1 =
      .single (db.graph.edgesResponse (Graph.limited limit
        (db.graph.outgoingEdges (.parse id) types ++ db.graph.incomingEdges (.parse id) types))) := by
  simp only [dispatch, respond, Request.question?, ask, hopen]
  rfl

namespace Population

/-- In every reachable population, the reply to a query in both directions begins with the edges
that begin at the node, followed by those that end there, up to the limit: a loop is there twice.
The list in which every edge of the types asked for stands exactly once, the outgoing ones first, is
sent exactly if no loop is among the incoming edges that the limit allows behind the outgoing
ones. -/
theorem Reachable.queryEdges_both {p : Population} (h : Reachable p) {s : Session} {db : Database}
    (hopen : s.database? p.server.catalog = some db) (r : Readings) (id : String)
    (types : Option (List String)) (limit : Option Nat) :
    let node := NodeId.parse id
    let outgoing := db.graph.outgoingEdges node types
    let incoming := db.graph.incomingEdges node types
    let incident := db.graph.incidentEdges node types
    (p.server.dispatch s r (.queryEdges id "both" types limit)).1
      = .single (db.graph.edgesResponse (Graph.limited limit (outgoing ++ incoming))) ∧
    incident.Nodup ∧ outgoing <+: incident ∧
    (∀ edge, edge ∈ incident ↔ db.graph.edges[edge.key]? = some edge ∧
      (edge.src = node ∨ edge.dst = node) ∧ Graph.wantsType types edge.key.type) ∧
    (∀ edge ∈ incident,
      (outgoing ++ incoming).count edge = if edge.src = edge.dst then 2 else 1) ∧
    (Graph.limited limit (outgoing ++ incoming) = Graph.limited limit incident ↔
      ∀ edge ∈ Graph.limited (limit.map (· - outgoing.length)) incoming, edge.src ≠ node) := by
  intro node outgoing incoming incident
  obtain ⟨handle, -, hhandle⟩ := Option.bind_eq_some_iff.1 hopen
  have hgraph : db.graph.Consistent := (h.graph_reachable hhandle).consistent
  have hincident : incident = outgoing ++ incoming.filter (·.src != node) :=
    hgraph.incidentEdges_eq node types
  refine ⟨Server.dispatch_queryEdges_both hopen r id types limit,
    hgraph.nodup_incidentEdges node types, ?_, fun edge => hgraph.mem_incidentEdges,
    fun edge hedge => hgraph.count_bothDirections hedge, ?_⟩
  · rw [hincident]
    exact List.prefix_append _ _
  · rw [hincident, Graph.limited_append_eq_iff]
    simp only [bne_iff_ne]

/-- A client stores a function that calls itself and another one. -/
def calling : List Event :=
  [.accept .unix,
    .request 0 atStart (.createDatabase "calls" true),
    .request 0 atStart (.openDatabase "calls" "rw"),
    .request 0 atStart (.addNodes [⟨"1", none, some "FUNCTION", none, none, false, none⟩,
      ⟨"2", none, some "FUNCTION", none, none, false, none⟩]),
    .request 0 atStart (.addEdges [⟨"1", "1", some "CALLS", none⟩, ⟨"1", "2", some "CALLS", none⟩]
      false)]

/-- The population after these events. -/
def called : Population := calling.foldl step fresh

lemma called_reachable : Reachable called :=
  (Reachable.start rfl).steps calling

/-- Two edges begin at the function, one of them a loop, and only the loop ends there. -/
lemma called_edges : ∃ (conn : Connection) (db : Database), called.connections[0]? = some conn ∧
    conn.session.database? called.server.catalog = some db ∧
    (db.graph.outgoingEdges (.parse "1") none).map db.graph.toWire =
      [⟨"1", "1", some "CALLS", none⟩, ⟨"1", "2", some "CALLS", none⟩] ∧
    (db.graph.incomingEdges (.parse "1") none).map db.graph.toWire =
      [⟨"1", "1", some "CALLS", none⟩] ∧
    (db.graph.incidentEdges (.parse "1") none).map db.graph.toWire =
      [⟨"1", "1", some "CALLS", none⟩, ⟨"1", "2", some "CALLS", none⟩] := by
  have hrun : called.connections[0]?.bind (fun conn =>
      (conn.session.database? called.server.catalog).map fun db =>
        ((db.graph.outgoingEdges (.parse "1") none).map db.graph.toWire,
          (db.graph.incomingEdges (.parse "1") none).map db.graph.toWire,
          (db.graph.incidentEdges (.parse "1") none).map db.graph.toWire)) =
      some ([⟨"1", "1", some "CALLS", none⟩, ⟨"1", "2", some "CALLS", none⟩],
        [⟨"1", "1", some "CALLS", none⟩],
        [⟨"1", "1", some "CALLS", none⟩, ⟨"1", "2", some "CALLS", none⟩]) := by
    decide +kernel
  obtain ⟨conn, hconn, hgraph⟩ := Option.bind_eq_some_iff.1 hrun
  obtain ⟨db, hopen, hedges⟩ := Option.map_eq_some_iff.1 hgraph
  obtain ⟨houtgoing, hends⟩ := Prod.mk.inj hedges
  obtain ⟨hincoming, hincident⟩ := Prod.mk.inj hends
  exact ⟨conn, db, hconn, hopen, houtgoing, hincoming, hincident⟩

/-- With room for no more than the edges that begin at the function, each is sent once. -/
theorem queryEdges_both_called : Reachable called ∧ ∃ (conn : Connection) (db : Database),
    called.connections[0]? = some conn ∧
    conn.session.database? called.server.catalog = some db ∧
    (called.server.dispatch conn.session atStart (.queryEdges "1" "both" none (some 2))).1 =
      .single (db.graph.edgesResponse
        (Graph.limited (some 2) (db.graph.incidentEdges (.parse "1") none))) := by
  obtain ⟨conn, db, hconn, hopen, houtgoing, -⟩ := called_edges
  obtain ⟨hreply, -, -, -, -, hsame⟩ :=
    called_reachable.queryEdges_both hopen atStart "1" none (some 2)
  have hlength : (db.graph.outgoingEdges (.parse "1") none).length = 2 := by
    rw [← List.length_map db.graph.toWire, houtgoing]
    rfl
  refine ⟨called_reachable, conn, db, hconn, hopen, ?_⟩
  rw [hreply, hsame.2 ?_]
  intro edge hedge
  rw [Option.map_some, hlength] at hedge
  cases hedge

/-- Without a limit the loop is sent twice. -/
theorem loop_is_sent_twice : Reachable called ∧ ∃ (conn : Connection) (db : Database),
    called.connections[0]? = some conn ∧
    conn.session.database? called.server.catalog = some db ∧
    (called.server.dispatch conn.session atStart (.queryEdges "1" "both" none none)).1 =
      .single (.edges [⟨"1", "1", some "CALLS", none⟩, ⟨"1", "2", some "CALLS", none⟩,
        ⟨"1", "1", some "CALLS", none⟩]) ∧
    db.graph.edgesResponse (db.graph.incidentEdges (.parse "1") none) =
      .edges [⟨"1", "1", some "CALLS", none⟩, ⟨"1", "2", some "CALLS", none⟩] := by
  obtain ⟨conn, db, hconn, hopen, houtgoing, hincoming, hincident⟩ := called_edges
  refine ⟨called_reachable, conn, db, hconn, hopen, ?_, ?_⟩
  · rw [Server.dispatch_queryEdges_both hopen, Graph.limited, Graph.edgesResponse, List.map_append,
      houtgoing, hincoming]
    rfl
  · rw [Graph.edgesResponse, hincident]

end Population

end CodeGraph
