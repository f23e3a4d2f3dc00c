import CodeGraph.Disk
import CodeGraph.Graph.Index

/-!
# Graphs

A graph has contents, indexes over them, declared fields and snapshots of earlier
contents.  A persistent graph knows the directory in which its image lies; an ephemeral
one has none.  The changes since the last flush are counted.

This module has the changes of contents; see `Graph.Query` for what can be asked,
`Graph.Snapshot` and `Graph.Batch` for larger operations, and `Graph.Persistence` for
images on disk.
-/

namespace CodeGraph

open Std (ExtTreeMap)

/-- Labels of a snapshot. -/
abbrev Tags := ExtTreeMap String String

/-- Contents kept from an earlier moment, and what was noted about them then. -/
structure Snapshot where
  contents : Contents
  tags : Tags
  createdAt : Nat
  totalNodes : Nat
  totalEdges : Nat

/-- A graph of code. -/
structure Graph extends Contents where
  fields : List FieldDecl
  index : Index
  snapshots : ExtTreeMap Nat Snapshot
  nextVersion : Nat
  location : Option Path
  unflushed : Nat

namespace Graph

/-- The graph with nothing in it. -/
def empty (location : Option Path) : Graph where
  toContents := .empty
  fields := []
  index := .empty
  snapshots := ∅
  nextVersion := 1
  location := location
  unflushed := 0

/-- A graph that is never written to disk. -/
def ephemeral : Graph := empty none

/-- Whether a graph is never written to disk. -/
def isEphemeral (g : Graph) : Bool := g.location.isNone

/-- Replaces the contents, with the indexes belonging to them. -/
def setContents (g : Graph) (contents : Contents) : Graph :=
  { g with toContents := contents, index := .scan g.fields contents }

/-- Builds the indexes anew. -/
def rebuild (g : Graph) : Graph :=
  g.setContents g.toContents

/-! ### Nodes -/

/-- Adds a node in the place of one with the same identifier. -/
def addNode (g : Graph) (node : Node) : Graph :=
  let index := match g.nodes[node.id]? with
    | some old => g.index.removeNode g.fields old
    | none => g.index
  { g with
    nodes := g.nodes.insert node.id node
    index := index.addNode g.fields node
    unflushed := g.unflushed + 1 }

/-- Adds nodes in order. -/
def addNodes (g : Graph) (nodes : List Node) : Graph :=
  nodes.foldl addNode g

/-! ### Edges -/

/-- Adds an edge in the place of one with the same key. -/
def addEdge (g : Graph) (edge : Edge) : Graph :=
  { g with
    edges := g.edges.insert edge.key edge
    index := g.index.addEdge edge.key
    unflushed := g.unflushed + 1 }

/-- Whether both end points of an edge are nodes of the graph. -/
def hasEndpoints (g : Graph) (edge : Edge) : Bool :=
  g.nodes.contains edge.src && g.nodes.contains edge.dst

/-- The edges of a list that may be added: without validation all of them, otherwise
those whose end points are there. -/
def admissible (g : Graph) (edges : List Edge) (skipValidation : Bool) : List Edge :=
  if skipValidation then edges else edges.filter g.hasEndpoints

/-- Adds the admissible edges of a list in order. -/
def addEdges (g : Graph) (edges : List Edge) (skipValidation : Bool) : Graph :=
  (g.admissible edges skipValidation).foldl addEdge g

/-- Removes the edge under a key, without counting it as a change. -/
def dropEdge (g : Graph) (key : EdgeKey) : Graph :=
  { g with
    edges := g.edges.erase key
    index := g.index.removeEdge key }

/-- Removes the edge under a key, if there is one. -/
def deleteEdge (g : Graph) (key : EdgeKey) : Graph :=
  if g.edges.contains key then { g.dropEdge key with unflushed := g.unflushed + 1 } else g

/-- Removes a node and the edges that begin or end at it. -/
def deleteNode (g : Graph) (id : NodeId) : Graph :=
  match g.nodes[id]? with
  | none => g
  | some node =>
    let g := { g with
      nodes := g.nodes.erase id
      index := g.index.removeNode g.fields node
      unflushed := g.unflushed + 1 }
    (g.index.incident id).foldl dropEdge g

/-! ### Everything at once -/

/-- Removes all nodes and edges. -/
def clear (g : Graph) : Graph :=
  { g.setContents .empty with unflushed := g.unflushed + 1 }

/-- The declarations after one more, which replaces one of the same name in its place. -/
def declare (fields : List FieldDecl) (decl : FieldDecl) : List FieldDecl :=
  if fields.any (·.name == decl.name) then replaceFirst fields else fields ++ [decl]
where
  /-- Puts the declaration in the place of the first one with its name. -/
  replaceFirst : List FieldDecl → List FieldDecl
    | [] => []
    | f :: fs => if f.name == decl.name then decl :: fs else f :: replaceFirst fs

/-- Declares fields and indexes all nodes by them. -/
def declareFields (g : Graph) (decls : List FieldDecl) : Graph :=
  { g with fields := decls.foldl declare g.fields }.rebuild

end Graph

end CodeGraph
