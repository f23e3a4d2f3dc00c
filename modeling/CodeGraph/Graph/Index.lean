import CodeGraph.Metadata
import CodeGraph.Multimap

/-!
# Indexes

A graph finds its nodes by type, by file and by the values of declared fields, and its
edges by their end points.  `Index.scan` builds the indexes of given contents from
nothing; the other operations keep them up to date when a node or an edge comes or goes.

A field is known to the index from the first value it is seen with until the next scan,
even after the last node with a value has gone.
-/

namespace CodeGraph

open Std (ExtTreeMap ExtTreeSet)

/-- The nodes and edges of a graph. -/
structure Contents where
  nodes : ExtTreeMap NodeId Node
  edges : ExtTreeMap EdgeKey Edge

/-- No nodes and no edges. -/
def Contents.empty : Contents := ⟨∅, ∅⟩

/-- Where the nodes and edges of a graph are found. -/
structure Index where
  byType : Multimap String NodeId
  byFile : Multimap String NodeId
  byField : ExtTreeMap String (Multimap String NodeId)
  outgoing : Multimap NodeId EdgeKey
  incoming : Multimap NodeId EdgeKey

namespace Index

/-- The indexes of nothing. -/
def empty : Index := ⟨∅, ∅, ∅, ∅, ∅⟩

/-- Enters a value of a node under an attribute that it may lack. -/
def enter (m : Multimap String NodeId) (key : Option String) (id : NodeId) :
    Multimap String NodeId :=
  match key with
  | some key => m.add key id
  | none => m

/-- Takes a value of a node away from under an attribute that it may lack. -/
def leave (m : Multimap String NodeId) (key : Option String) (id : NodeId) :
    Multimap String NodeId :=
  match key with
  | some key => m.remove key id
  | none => m

/-- The nodes with a value of a field. -/
def withValue (index : Index) (field value : String) : ExtTreeSet NodeId :=
  ((index.byField[field]?).getD ∅).values value

/-- Enters a node under a value of a field. -/
def enterValue (id : NodeId) (byField : ExtTreeMap String (Multimap String NodeId))
    (value : String × String) : ExtTreeMap String (Multimap String NodeId) :=
  byField.insert value.1 (((byField[value.1]?).getD ∅).add value.2 id)

/-- Takes a node away from under a value of a field. -/
def leaveValue (id : NodeId) (byField : ExtTreeMap String (Multimap String NodeId))
    (value : String × String) : ExtTreeMap String (Multimap String NodeId) :=
  match byField[value.1]? with
  | some values => byField.insert value.1 (values.remove value.2 id)
  | none => byField

/-- Enters a node. -/
def addNode (fields : List FieldDecl) (index : Index) (node : Node) : Index :=
  { index with
    byType := enter index.byType node.type node.id
    byFile := enter index.byFile node.file node.id
    byField := (node.declaredValues fields).foldl (enterValue node.id) index.byField }

/-- Takes a node away. -/
def removeNode (fields : List FieldDecl) (index : Index) (node : Node) : Index :=
  { index with
    byType := leave index.byType node.type node.id
    byFile := leave index.byFile node.file node.id
    byField := (node.declaredValues fields).foldl (leaveValue node.id) index.byField }

/-- Enters an edge. -/
def addEdge (index : Index) (key : EdgeKey) : Index :=
  { index with
    outgoing := index.outgoing.add key.src key
    incoming := index.incoming.add key.dst key }

/-- Takes an edge away. -/
def removeEdge (index : Index) (key : EdgeKey) : Index :=
  { index with
    outgoing := index.outgoing.remove key.src key
    incoming := index.incoming.remove key.dst key }

/-- The indexes of given contents. -/
def scan (fields : List FieldDecl) (contents : Contents) : Index :=
  let withNodes := contents.nodes.foldl (fun index _ node => index.addNode fields node) empty
  contents.edges.foldl (fun index key _ => index.addEdge key) withNodes

/-- The keys of the edges that begin or end at a node. -/
def incident (index : Index) (id : NodeId) : List EdgeKey :=
  (index.outgoing.values id ∪ index.incoming.values id).toList

end Index

end CodeGraph
