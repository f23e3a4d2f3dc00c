import CodeGraph.Failure
import CodeGraph.Graph.Basic

/-!
# Snapshots

A snapshot keeps the contents of a graph under a version.  Versions only grow, so one
is never used twice.  Every operation on a version that is not there is refused.
-/

namespace CodeGraph

/-- How two snapshots differ. -/
structure SnapshotDiff where
  source : Nat
  target : Nat
  addedNodes : Nat
  removedNodes : Nat
  changedNodes : Nat
  addedEdges : Nat
  removedEdges : Nat
  sourceNodes : Nat
  sourceEdges : Nat
  targetNodes : Nat
  targetEdges : Nat
deriving DecidableEq

namespace Graph

/-- Keeps the contents under the next version, with their numbers of nodes and edges, and
gives that version. -/
def createSnapshot (g : Graph) (tags : Tags) (now : Nat) : Nat × Graph :=
  (g.nextVersion, { g with
    snapshots := g.snapshots.insert g.nextVersion
      ⟨g.toContents, tags, now, g.nodes.size, g.edges.size⟩
    nextVersion := g.nextVersion + 1 })

/-- The snapshot of a version. -/
def snapshot (g : Graph) (version : Nat) : Except Failure Snapshot :=
  match g.snapshots[version]? with
  | some snapshot => .ok snapshot
  | none => .error (.snapshotNotFound version)

/-- Adds tags to a snapshot, new values replacing old ones. -/
def tagSnapshot (g : Graph) (version : Nat) (tags : Tags) : Except Failure Graph :=
  (g.snapshot version).map fun snapshot =>
    let tags := tags.foldl (fun all key value => all.insert key value) snapshot.tags
    { g with snapshots := g.snapshots.insert version { snapshot with tags := tags } }

/-- The latest version whose snapshot has a tag. -/
def findSnapshot (g : Graph) (key value : String) : Option Nat :=
  (g.snapshots.toList.reverse.find? fun (_, snapshot) =>
    snapshot.tags[key]? == some value).map Prod.fst

/-- The snapshots by version, all of them or those with a tag of the given name. -/
def listSnapshots (g : Graph) (tag : Option String) : List (Nat × Snapshot) :=
  g.snapshots.toList.filter fun (_, snapshot) =>
    match tag with
    | some tag => snapshot.tags.contains tag
    | none => true

/-- How the contents of one version differ from those of another.  The totals are those
that were noted when the snapshots were made. -/
def diffSnapshots (g : Graph) (source target : Nat) : Except Failure SnapshotDiff := do
  let first ← g.snapshot source
  let second ← g.snapshot target
  let before := first.contents
  let after := second.contents
  pure {
    source := source
    target := target
    addedNodes := after.nodes.keys.countP (!before.nodes.contains ·)
    removedNodes := before.nodes.keys.countP (!after.nodes.contains ·)
    changedNodes := after.nodes.toList.countP fun (id, node) =>
      match before.nodes[id]? with
      | some old => old != node
      | none => false
    addedEdges := after.edges.keys.countP (!before.edges.contains ·)
    removedEdges := before.edges.keys.countP (!after.edges.contains ·)
    sourceNodes := first.totalNodes
    sourceEdges := first.totalEdges
    targetNodes := second.totalNodes
    targetEdges := second.totalEdges }

/-- Puts the contents of a version in the place of the present ones. -/
def restoreSnapshot (g : Graph) (version : Nat) : Except Failure Graph :=
  (g.snapshot version).map fun snapshot =>
    { g.setContents snapshot.contents with unflushed := g.unflushed + 1 }

/-- Forgets a version. -/
def deleteSnapshot (g : Graph) (version : Nat) : Except Failure Graph :=
  (g.snapshot version).map fun _ => { g with snapshots := g.snapshots.erase version }

end Graph

end CodeGraph
