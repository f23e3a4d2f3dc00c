import CodeGraph.Graph.Basic
import CodeGraph.Traversal

/-!
# Questions to a graph

Answers list nodes by identifier and edges by key, so they do not depend on the order in
which things were added.
-/

namespace CodeGraph.Graph

open Std (ExtTreeMap ExtTreeSet)

/-! ### Nodes -/

/-- The node with an identifier. -/
def node? (g : Graph) (id : NodeId) : Option Node :=
  g.nodes[id]?

/-- Whether there is a node with an identifier, and it is an endpoint. -/
def isEndpoint (g : Graph) (id : NodeId) : Bool :=
  (g.node? id).any Node.isEndpoint

/-- The nodes whose type fits a pattern. -/
def findByType (g : Graph) (pattern : String) : ExtTreeSet NodeId :=
  if pattern.toList.getLast? = some '*' then
    g.index.byType.foldl (fun found type ids =>
      if typeMatches pattern type then found ∪ ids else found) ∅
  else g.index.byType.values pattern

/-- Whether a node answers a query. -/
def satisfies (query : AttrQuery) (node : Node) : Bool :=
  (match query.type, node.type with
    | none, _ => true
    | some pattern, some type => typeMatches pattern type
    | some _, none => false) &&
  (query.name.isNone || node.name == query.name) &&
  (query.file.isNone || node.file == query.file) &&
  (query.exported.isNone || query.exported == some node.exported) &&
  node.hasValues query.filters

/-- The nodes among which the answers to a query are looked for: those of its file, else
those of its type, else those with the value of the first filter on an indexed field,
else all. -/
def candidates (g : Graph) (query : AttrQuery) : List NodeId :=
  match query.file, query.type,
      query.filters.find? fun (field, _) => g.index.byField.contains field with
  | some file, _, _ => (g.index.byFile.values file).toList
  | none, some pattern, _ => (g.findByType pattern).toList
  | none, none, some (field, value) => (g.index.withValue field value).toList
  | none, none, none => g.nodes.keys

/-- The nodes that answer a query. -/
def findByAttr (g : Graph) (query : AttrQuery) : List NodeId :=
  (((g.candidates query).filterMap g.node?).filter (satisfies query)).map Node.id

/-- How many nodes there are of each type that fits one of the patterns, or of each type
at all. -/
def countNodes (g : Graph) (patterns : Option (List String)) : List (String × Nat) :=
  (g.index.byType.toList.filter fun (type, _) =>
    match patterns with
    | some patterns => patterns.any (typeMatches · type)
    | none => true).map fun (type, ids) => (type, ids.size)

/-! ### Edges -/

/-- Whether an edge type is asked for: an absent or empty list asks for every type. -/
def wantsType (types : Option (List String)) (type : String) : Bool :=
  match types with
  | none | some [] => true
  | some types => types.contains type

/-- The edges with the given keys and a type asked for. -/
def edgesUnder (g : Graph) (keys : ExtTreeSet EdgeKey) (types : Option (List String)) :
    List Edge :=
  (keys.toList.filter fun key => wantsType types key.type).filterMap (g.edges[·]?)

/-- The edges that begin at a node. -/
def outgoingEdges (g : Graph) (id : NodeId) (types : Option (List String)) : List Edge :=
  g.edgesUnder (g.index.outgoing.values id) types

/-- The edges that end at a node. -/
def incomingEdges (g : Graph) (id : NodeId) (types : Option (List String)) : List Edge :=
  g.edgesUnder (g.index.incoming.values id) types

/-- All edges. -/
def allEdges (g : Graph) : List Edge :=
  g.edges.toList.map Prod.snd

/-- The nodes one step away from a node, each once. -/
def neighbors (g : Graph) (id : NodeId) (types : List String) : List NodeId :=
  (Traversal.discover ∅
    (((g.index.outgoing.values id).toList.filter fun key => wantsType (some types) key.type).map
      EdgeKey.dst)).1

/-- How many edges there are of each type that fits one of the patterns, or of each type
at all. -/
def countEdges (g : Graph) (patterns : Option (List String)) : List (String × Nat) :=
  (g.edges.keys.foldl (fun counts key =>
    let wanted := match patterns with
      | some patterns => patterns.any (typeMatches · key.type)
      | none => true
    if wanted then counts.alter key.type fun n => some (n.getD 0 + 1) else counts)
    (∅ : ExtTreeMap String Nat)).toList

/-! ### Walks -/

/-- The nodes at most `depth` steps away from the given ones. -/
def reach (g : Graph) (start : List NodeId) (depth : Nat) (types : List String) :
    List NodeId :=
  Traversal.breadthFirst start depth (g.neighbors · types)

/-- The nodes entered by a depth-first walk from the given ones. -/
def walk (g : Graph) (start : List NodeId) (depth : Nat) (types : List String) :
    List NodeId :=
  Traversal.depthFirst start depth (g.neighbors · types)

/-- The nodes from which the given ones are at most `depth` steps away. -/
def reachBackward (g : Graph) (start : List NodeId) (depth : Nat) (types : List String) :
    List NodeId :=
  Traversal.breadthFirst start depth fun id =>
    (g.incomingEdges id (some types)).map Edge.src

/-- The nodes reachable from the given ones, following edges or going against them. -/
def reachability (g : Graph) (start : List NodeId) (depth : Nat) (types : List String)
    (backward : Bool) : List NodeId :=
  if backward then g.reachBackward start depth types else g.reach start depth types

end CodeGraph.Graph
