import Mathlib
import CodeGraph.Proofs.Graph.Batch

/-!
# What a batch tells

The result of a batch tells of the nodes of its files and of the edges at them, as they were
before the batch, each counted once, and of what came in their place (`CommitDelta.Tells`).
Together with the contents that it leaves, `Contents.replaced`, this is all that a batch does
when it succeeds (`Graph.Reachable.commitBatch_replaces`).
-/

namespace CodeGraph

/-- The result of a batch tells what there was of the files, with the edges at it, and what came
in its place.  An edge without a type counts among the types only when it comes with an empty
one, not when it goes. -/
structure CommitDelta.Tells (delta : CommitDelta) (contents : Contents) (files : List String)
    (nodes : List Node) (edges : List Edge) : Prop where
  changedFiles : delta.changedFiles = files
  nodesAdded : delta.nodesAdded = nodes.length
  nodesRemoved : delta.nodesRemoved = (contents.within (contents.isIn files)).nodes.size
  edgesAdded : delta.edgesAdded = edges.length
  edgesRemoved : delta.edgesRemoved = (contents.within (contents.isIn files)).edges.size
  mem_nodeTypes : ∀ type : String, type ∈ delta.nodeTypes ↔
    (∃ (id : NodeId) (node : Node), (contents.within (contents.isIn files)).nodes[id]? = some node ∧
      node.type = some type) ∨ ∃ node ∈ nodes, node.type = some type
  mem_edgeTypes : ∀ type : String, type ∈ delta.edgeTypes ↔
    (type ≠ "" ∧ ∃ key ∈ (contents.within (contents.isIn files)).edges, key.type = type) ∨
      ∃ edge ∈ edges, edge.type = some type

namespace Graph

/-- What was counted while the nodes went, with what is given, is what the result tells. -/
lemma Consistent.commitBatch_tells {g g' : Graph} (h : g.Consistent) {disk disk' : Disk}
    {files : List String} {nodes : List Node} {edges : List Edge} {delta : CommitDelta}
    (hok : g.commitBatch disk files nodes edges = (.ok delta, g', disk')) :
    delta.Tells g.toContents files nodes edges := by
  have hcleared := (Clearing.Tells.start h).removeFiles files
  rw [List.nil_append] at hcleared
  unfold Graph.commitBatch at hok
  dsimp only at hok
  split at hok
  · obtain rfl := Except.ok.inj (congrArg Prod.fst hok)
    exact {
      changedFiles := rfl
      nodesAdded := rfl
      nodesRemoved := hcleared.nodesRemoved
      edgesAdded := rfl
      edgesRemoved := size_eq_of_mem_iff hcleared.mem_removedEdges
      mem_nodeTypes := fun type => by
        rw [mem_foldl_insertType, hcleared.mem_nodeTypes, List.mem_map, or_comm]
      mem_edgeTypes := fun type => by
        rw [mem_foldl_insertType, hcleared.mem_edgeTypes, List.mem_map, or_comm] }
  · simp at hok

/-- A batch of a reachable graph that succeeds replaces what is in its files: the nodes of the
files go with the edges at them, and the nodes and edges given come in order, each in the place
of what was there under its identifier or key, whatever its end points.  Declared fields and
snapshots stay, no changes are left to be flushed, and the result tells what went and what
came. -/
theorem Reachable.commitBatch_replaces {g g' : Graph} (h : Reachable g) {disk disk' : Disk}
    {files : List String} {nodes : List Node} {edges : List Edge} {delta : CommitDelta}
    (hok : g.commitBatch disk files nodes edges = (.ok delta, g', disk')) :
    g'.toContents = g.toContents.replaced files nodes edges ∧ g'.fields = g.fields ∧
      g'.snapshots = g.snapshots ∧ g'.unflushed = 0 ∧
      delta.Tells g.toContents files nodes edges := by
  have hhousing : SameHousing g (g.refilled files nodes edges) :=
    sameHousing_refilled g files nodes edges
  have hcontents := h.consistent.refilled_contents files nodes edges
  have htells := h.consistent.commitBatch_tells hok
  obtain rfl := commitBatch_eq_ok hok
  exact ⟨hcontents, hhousing.fields_eq, hhousing.snapshots_eq, rfl, htells⟩

/-- Two nodes of a file with an edge between them and a loop without a type, and a node of
another file that calls one of them. -/
def twoFiles : Graph :=
  ephemeral.performAll [
    .addNodes [functionIn "a.js" 1, functionIn "a.js" 2, functionIn "b.js" 3],
    .addEdges [⟨.ofNat 1, .ofNat 2, some "calls", none⟩, ⟨.ofNat 2, .ofNat 2, none, none⟩,
      ⟨.ofNat 3, .ofNat 1, some "calls", none⟩] true]

/-- A file that is named twice is emptied once, an edge between two of its nodes and a loop go
once, and a node that comes with another file is taken to it. -/
theorem commitBatch_replaces_twoFiles : Reachable twoFiles ∧ ∃ delta g',
    twoFiles.commitBatch homeDisk ["a.js", "a.js"] [functionIn "b.js" 1, functionIn "a.js" 3]
      [⟨.ofNat 9, .ofNat 1, some "imports", none⟩] = (.ok delta, g', homeDisk) ∧
      delta.nodesRemoved = 2 ∧ delta.edgesRemoved = 3 ∧ "imports" ∈ delta.edgeTypes ∧
      "" ∉ delta.edgeTypes ∧ g'.nodes[NodeId.ofNat 1]? = some (functionIn "b.js" 1) := by
  have hreach : Reachable twoFiles := Reachable.ephemeral.performAll _
  have hok : twoFiles.commitBatch homeDisk ["a.js", "a.js"]
      [functionIn "b.js" 1, functionIn "a.js" 3] [⟨.ofNat 9, .ofNat 1, some "imports", none⟩]
        = (.ok _, _, homeDisk) := rfl
  obtain ⟨hcontents, -, -, -, htells⟩ := hreach.commitBatch_replaces hok
  refine ⟨hreach, _, _, hok, ?_, ?_, ?_, ?_, ?_⟩
  · rw [htells.nodesRemoved]
    decide +kernel
  · rw [htells.edgesRemoved]
    decide +kernel
  · rw [htells.mem_edgeTypes]
    exact .inr ⟨_, List.mem_singleton_self _, rfl⟩
  · rw [htells.mem_edgeTypes]
    simp
  · rw [hcontents]
    unfold Contents.replaced
    rw [getElem?_foldl_insert]
    rfl

end Graph

end CodeGraph
