import CodeGraph.Protocol.Request
import CodeGraph.Protocol.Response
import CodeGraph.Protocol.Naming
import CodeGraph.Rules.Answers

/-!
# Requests that read

`Request.question?` is what a request asks of the graph that is open, for the requests
that only read.  The answer depends on nothing but the graph and, for rules, on those
that the client has loaded.
-/

namespace CodeGraph

namespace Graph

/-- Identifiers as they are named in messages. -/
def idsResponse (g : Graph) (ids : List NodeId) : Response :=
  .ids (ids.map g.displayName)

/-- Edges as messages describe them. -/
def edgesResponse (g : Graph) (edges : List Edge) : Response :=
  .edges (edges.map g.toWire)

/-- The nodes with the given identifiers as messages describe them. -/
def described (g : Graph) (ids : List NodeId) : List Wire.Node :=
  (ids.filterMap g.node?).map Node.toWire

/-- The nodes that a query selects. -/
def selected (g : Graph) (query : Wire.Query) : List Wire.Node :=
  g.described (g.findByAttr (.ofWire query))

/-- What a node is called: its name, or else its type and the name asked with. -/
def identifier? (g : Graph) (id : String) : Option String :=
  (g.node? (.parse id)).map fun node =>
    node.name.getD (node.type.getD "UNKNOWN" ++ ":" ++ id)

/-- The edges at a node in a direction, if it is one. -/
def edgesInDirection? (g : Graph) (id : NodeId) (direction : String)
    (types : Option (List String)) : Option (List Edge) :=
  match direction with
  | "outgoing" => some (g.outgoingEdges id types)
  | "incoming" => some (g.incomingEdges id types)
  | "both" => some (g.outgoingEdges id types ++ g.incomingEdges id types)
  | _ => none

/-- The first edges of a list, or all of them. -/
def limited (limit : Option Nat) (edges : List Edge) : List Edge :=
  match limit with
  | some n => edges.take n
  | none => edges

/-- The files with a node that has an edge to a given node. -/
def dependentFiles (g : Graph) (id : NodeId) (types : Option (List String)) : List String :=
  (Std.ExtTreeSet.ofList ((g.incomingEdges id types).filterMap fun edge =>
    (g.node? edge.src).bind Node.file)).toList

/-- Answers of rules as a reply, or why there are none. -/
def answersResponse (g : Graph) (reply : List (List (String × String)) → Response) :
    Except Rules.QueryError (List Rules.Bindings) → Response
  | .ok answers => reply (answers.map g.displayBindings)
  | .error error => .failed error.message

end Graph

/-- What a request asks of the open graph, if it only reads. -/
def Request.question? (rules : List Rules.Rule) : Request → Option (Graph → Response)
  | getNode id => some fun g => .node ((g.node? (.parse id)).map Node.toWire)
  | nodeExists id => some fun g => .truth (g.nodes.contains (.parse id))
  | getNodeIdentifier id => some fun g => .identifier (g.identifier? id)
  | isEndpoint id => some fun g => .truth (g.isEndpoint (.parse id))
  | findByType type => some fun g => g.idsResponse (g.findByType type).toList
  | findByAttr query => some fun g => g.idsResponse (g.findByAttr (.ofWire query))
  | queryNodes query => some fun g => .nodes (g.selected query)
  | getAllEdges => some fun g => g.edgesResponse g.allEdges
  | getOutgoingEdges id types =>
    some fun g => g.edgesResponse (g.outgoingEdges (.parse id) types)
  | getIncomingEdges id types =>
    some fun g => g.edgesResponse (g.incomingEdges (.parse id) types)
  | queryEdges id direction types limit => some fun g =>
    match g.edgesInDirection? (.parse id) direction types with
    | some edges => g.edgesResponse (Graph.limited limit edges)
    | none => .failed
        s!"Invalid direction '{direction}'. Expected \"outgoing\", \"incoming\" or \"both\""
  | findDependentFiles id types => some fun g => .files (g.dependentFiles (.parse id) types)
  | nodeCount => some fun g => .count g.nodes.size
  | edgeCount => some fun g => .count g.edges.size
  | countNodesByType types => some fun g => .counts (g.countNodes types)
  | countEdgesByType types => some fun g => .counts (g.countEdges types)
  | neighbors id types => some fun g => g.idsResponse (g.neighbors (.parse id) types)
  | bfs start maxDepth types =>
    some fun g => g.idsResponse (g.reach (start.map .parse) maxDepth types)
  | dfs start maxDepth types =>
    some fun g => g.idsResponse (g.walk (start.map .parse) maxDepth types)
  | reachability start maxDepth types backward =>
    some fun g => g.idsResponse (g.reachability (start.map .parse) maxDepth types backward)
  | listSnapshots tag => some fun g => .snapshots (g.listSnapshots tag)
  | diffSnapshots source target => some fun g =>
    match g.diffSnapshots source target with
    | .ok diff => .snapshotDiff diff
    | .error failure => .ofFailure failure
  | findSnapshot key value => some fun g => .snapshotVersion (g.findSnapshot key value)
  | checkGuarantee source => some fun g =>
    g.answersResponse .violations (Rules.checkGuarantee g source)
  | datalogQuery query => some fun g =>
    g.answersResponse .results (Rules.runQuery g rules query)
  | executeDatalog source => some fun g =>
    g.answersResponse .results (Rules.execute g rules source)
  | _ => none

end CodeGraph
