import CodeGraph.Graph.Persistence

/-!
# Batches

A batch replaces everything that belongs to some files: their nodes go with the edges at
them, the new nodes and edges come, and the graph is flushed.  The result tells what
changed.  If flushing fails the changes have been made all the same.
-/

namespace CodeGraph

open Std (ExtTreeSet)

/-- What a batch changed. -/
structure CommitDelta where
  changedFiles : List String
  nodesAdded : Nat
  nodesRemoved : Nat
  edgesAdded : Nat
  edgesRemoved : Nat
  nodeTypes : ExtTreeSet String
  edgeTypes : ExtTreeSet String

namespace Graph

/-- A graph from which nodes are being removed, and what was removed so far. -/
structure Clearing where
  graph : Graph
  nodesRemoved : Nat
  removedEdges : ExtTreeSet EdgeKey
  nodeTypes : ExtTreeSet String
  edgeTypes : ExtTreeSet String

/-- A set with the value of an attribute that may be missing. -/
def insertType (types : ExtTreeSet String) (type : Option String) : ExtTreeSet String :=
  match type with
  | some type => types.insert type
  | none => types

/-- Removes one node with the edges at it. -/
def Clearing.removeNode (c : Clearing) (id : NodeId) : Clearing :=
  let keys := c.graph.index.incident id
  { graph := c.graph.deleteNode id
    nodesRemoved := c.nodesRemoved + 1
    removedEdges := keys.foldl (·.insert ·) c.removedEdges
    nodeTypes := insertType c.nodeTypes (c.graph.nodes[id]?.bind Node.type)
    edgeTypes := keys.foldl (fun types key =>
      if key.type.isEmpty then types else types.insert key.type) c.edgeTypes }

/-- Removes the nodes of one file. -/
def Clearing.removeFile (c : Clearing) (file : String) : Clearing :=
  (c.graph.index.byFile.values file).toList.foldl Clearing.removeNode c

/-- Replaces everything that belongs to the changed files. -/
def commitBatch (g : Graph) (disk : Disk) (changedFiles : List String) (nodes : List Node)
    (edges : List Edge) : Except Failure CommitDelta × Graph × Disk :=
  let cleared := changedFiles.foldl Clearing.removeFile ⟨g, 0, ∅, ∅, ∅⟩
  let delta := {
    changedFiles := changedFiles
    nodesAdded := nodes.length
    nodesRemoved := cleared.nodesRemoved
    edgesAdded := edges.length
    edgesRemoved := cleared.removedEdges.size
    nodeTypes := (nodes.map Node.type).foldl insertType cleared.nodeTypes
    edgeTypes := (edges.map Edge.type).foldl insertType cleared.edgeTypes }
  let filled := (cleared.graph.addNodes nodes).addEdges edges true
  match filled.flush disk with
  | (.ok flushed, disk) => (.ok delta, flushed, disk)
  | (.error failure, disk) => (.error failure, filled, disk)

end Graph

end CodeGraph
