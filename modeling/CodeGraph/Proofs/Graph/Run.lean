import Mathlib
import CodeGraph.Graph.Batch
import CodeGraph.Proofs.Graph.Index

/-!
# Runs of a graph

An `Operation` is anything that can be done to a graph; one that is refused leaves the
graph as it was.  A graph is *reachable* when it comes from a new graph, or from one that
was opened, by operations in any order.

A graph is *consistent* when its contents and those of its snapshots are keyed and its
index describes the contents by the fields that are declared now.  Every operation keeps
a graph consistent (`Consistent.perform`), so every reachable graph is
(`Reachable.consistent`).

Two more things are kept: whatever entering and leaving keep of an index is had by the index of
every reachable graph (`IndexInvariant.reachable`), and a graph stays where it is stored while
it is changed or flushed (`Follows.location_eq`).
-/

namespace CodeGraph.Graph

open Std (ExtTreeMap)

/-- What can be done to a graph.  Where the graph is written, the disk is part of the
operation. -/
inductive Operation where
  | addNodes (nodes : List Node)
  | deleteNode (id : NodeId)
  | addEdges (edges : List Edge) (skipValidation : Bool)
  | deleteEdge (key : EdgeKey)
  | declareFields (decls : List FieldDecl)
  | rebuild
  | clear
  | commitBatch (disk : Disk) (changedFiles : List String) (nodes : List Node)
      (edges : List Edge)
  | createSnapshot (tags : Tags) (now : Nat)
  | tagSnapshot (version : Nat) (tags : Tags)
  | restoreSnapshot (version : Nat)
  | deleteSnapshot (version : Nat)
  | flush (disk : Disk)
  | compact (disk : Disk)

/-- A graph after an operation that may be refused. -/
def unlessRefused (g : Graph) : Except Failure Graph → Graph
  | .ok g' => g'
  | .error _ => g

/-- A graph after an operation. -/
def perform (g : Graph) : Operation → Graph
  | .addNodes nodes => g.addNodes nodes
  | .deleteNode id => g.deleteNode id
  | .addEdges edges skipValidation => g.addEdges edges skipValidation
  | .deleteEdge key => g.deleteEdge key
  | .declareFields decls => g.declareFields decls
  | .rebuild => g.rebuild
  | .clear => g.clear
  | .commitBatch disk changedFiles nodes edges =>
    (g.commitBatch disk changedFiles nodes edges).2.1
  | .createSnapshot tags now => (g.createSnapshot tags now).2
  | .tagSnapshot version tags => g.unlessRefused (g.tagSnapshot version tags)
  | .restoreSnapshot version => g.unlessRefused (g.restoreSnapshot version)
  | .deleteSnapshot version => g.unlessRefused (g.deleteSnapshot version)
  | .flush disk => g.unlessRefused (g.flush disk).1
  | .compact disk => (g.compact disk).2.1

/-- A graph after operations in order. -/
def performAll (g : Graph) (ops : List Operation) : Graph :=
  ops.foldl perform g

/-- The graphs that come about by operations from one that is new or was opened. -/
inductive Reachable : Graph → Prop
  | ephemeral : Reachable .ephemeral
  | created {disk disk' : Disk} {location : Path} {g : Graph}
      (h : create disk location = (.ok g, disk')) : Reachable g
  | opened {disk : Disk} {location : Path} {g : Graph}
      (h : load disk location = .ok g) : Reachable g
  | step {g : Graph} (op : Operation) (h : Reachable g) : Reachable (g.perform op)

lemma Reachable.performAll {g : Graph} (h : Reachable g) (ops : List Operation) :
    Reachable (g.performAll ops) :=
  List.foldlRecOn ops perform h fun _ hg op _ => hg.step op

/-- The contents of a graph and of its snapshots are keyed, and the index describes the
contents. -/
structure Consistent (g : Graph) : Prop where
  keyed : g.toContents.Keyed
  described : Index.Describes g.fields g.index g.toContents
  snapshots : ∀ {version : Nat} {snapshot : Snapshot},
    g.snapshots[version]? = some snapshot → snapshot.contents.Keyed

/-! ### What the parts of a batch keep, the batch keeps -/

lemma flush_fst_eq_ok {g g' : Graph} {disk : Disk} (h : (g.flush disk).1 = .ok g') :
    g' = { g with unflushed := 0 } := by
  unfold flush at h
  split at h
  · exact (Except.ok.inj h).symm
  · split at h
    · exact (Except.ok.inj h).symm
    · simp at h

/-- An operation on a version that is there works on its snapshot. -/
lemma map_snapshot_eq_ok {α : Type} {g : Graph} {version : Nat} {f : Snapshot → α} {a : α}
    (h : (g.snapshot version).map f = .ok a) :
    ∃ kept, g.snapshots[version]? = some kept ∧ f kept = a := by
  unfold snapshot at h
  cases hkept : g.snapshots[version]? with
  | none => simp [hkept, Except.map] at h
  | some kept => exact ⟨kept, rfl, by simpa [hkept, Except.map] using h⟩

section Batch

variable {P : Graph → Prop}

lemma addNodes_keeps (hnode : ∀ g node, P g → P (g.addNode node)) {g : Graph} (hg : P g)
    (nodes : List Node) : P (g.addNodes nodes) :=
  List.foldlRecOn nodes addNode hg fun g hg node _ => hnode g node hg

lemma addEdges_keeps (hedge : ∀ g edge, P g → P (g.addEdge edge)) {g : Graph} (hg : P g)
    (edges : List Edge) (skipValidation : Bool) : P (g.addEdges edges skipValidation) :=
  List.foldlRecOn _ addEdge hg fun g hg edge _ => hedge g edge hg

lemma removeFile_keeps (hdelete : ∀ g id, P g → P (g.deleteNode id)) {c : Clearing}
    (hc : P c.graph) (file : String) : P (c.removeFile file).graph :=
  List.foldlRecOn (motive := fun c => P (Clearing.graph c)) _ Clearing.removeNode hc
    fun c hc id _ => hdelete c.graph id hc

/-- A graph after a batch and before it is flushed. -/
def refilled (g : Graph) (files : List String) (nodes : List Node) (edges : List Edge) : Graph :=
  ((files.foldl Clearing.removeFile ⟨g, 0, ∅, ∅, ∅⟩).graph.addNodes nodes).addEdges edges true

lemma removeFiles_keeps (hdelete : ∀ g id, P g → P (g.deleteNode id)) {c : Clearing}
    (hc : P c.graph) (files : List String) : P (files.foldl Clearing.removeFile c).graph :=
  List.foldlRecOn (motive := fun c => P (Clearing.graph c)) files Clearing.removeFile hc
    fun _ hc file _ => removeFile_keeps hdelete hc file

lemma refilled_keeps (hdelete : ∀ g id, P g → P (g.deleteNode id))
    (hnode : ∀ g node, P g → P (g.addNode node))
    (hedge : ∀ g edge, P g → P (g.addEdge edge)) {g : Graph} (hg : P g) (files : List String)
    (nodes : List Node) (edges : List Edge) : P (g.refilled files nodes edges) := by
  have hcleared := removeFiles_keeps hdelete (c := ⟨g, 0, ∅, ∅, ∅⟩) hg files
  exact addEdges_keeps hedge (addNodes_keeps hnode hcleared nodes) edges true

/-- What deleting a node, adding a node, adding an edge and flushing keep, a batch keeps,
also when flushing fails. -/
theorem commitBatch_keeps (hdelete : ∀ g id, P g → P (g.deleteNode id))
    (hnode : ∀ g node, P g → P (g.addNode node))
    (hedge : ∀ g edge, P g → P (g.addEdge edge))
    (hflush : ∀ g, P g → P { g with unflushed := 0 }) {g : Graph} (hg : P g) (disk : Disk)
    (changedFiles : List String) (nodes : List Node) (edges : List Edge) :
    P (g.commitBatch disk changedFiles nodes edges).2.1 := by
  have hfilled := refilled_keeps hdelete hnode hedge hg changedFiles nodes edges
  unfold commitBatch
  dsimp only
  split
  · next flushed _ heq =>
    obtain rfl := flush_fst_eq_ok (congrArg Prod.fst heq)
    exact hflush _ hfilled
  · exact hfilled

/-- What a graph has, and every graph that an operation gives when it is not refused, it has
after the operation. -/
lemma unlessRefused_keeps {g : Graph} (hg : P g) {outcome : Except Failure Graph}
    (hok : ∀ g', outcome = .ok g' → P g') : P (g.unlessRefused outcome) := by
  cases outcome with
  | ok g' => exact hok g' rfl
  | error => exact hg

/-- Whether an operation is about snapshots. -/
def Operation.isAboutSnapshots : Operation → Bool
  | createSnapshot .. | tagSnapshot .. | restoreSnapshot .. | deleteSnapshot .. => true
  | _ => false

/-- What changing one node or one edge, taking other contents or declarations, and counting
changes keep, every operation keeps that is not about snapshots. -/
theorem perform_keeps (hdelete : ∀ g id, P g → P (g.deleteNode id))
    (hnode : ∀ g node, P g → P (g.addNode node))
    (hedge : ∀ g edge, P g → P (g.addEdge edge))
    (hdrop : ∀ g key, P g → P (g.dropEdge key))
    (hcontents : ∀ g fields contents, P g → P ({ g with fields := fields }.setContents contents))
    (hcount : ∀ g n, P g → P { g with unflushed := n }) {g : Graph} (hg : P g)
    {op : Operation} (hop : op.isAboutSnapshots = false) : P (g.perform op) := by
  have hrebuild : P g.rebuild := hcontents g g.fields g.toContents hg
  cases op with
  | addNodes nodes => exact addNodes_keeps hnode hg nodes
  | deleteNode id => exact hdelete g id hg
  | addEdges edges skipValidation => exact addEdges_keeps hedge hg edges skipValidation
  | deleteEdge key =>
    change P (g.deleteEdge key)
    unfold deleteEdge
    split
    · exact hcount _ _ (hdrop g key hg)
    · exact hg
  | declareFields decls => exact hcontents g _ g.toContents hg
  | rebuild => exact hrebuild
  | clear => exact hcount _ _ (hcontents g g.fields .empty hg)
  | commitBatch disk changedFiles nodes edges =>
    exact commitBatch_keeps hdelete hnode hedge (fun g hg => hcount g 0 hg) hg disk
      changedFiles nodes edges
  | flush disk =>
    refine unlessRefused_keeps hg fun flushed hflush => ?_
    exact flush_fst_eq_ok hflush ▸ hcount g 0 hg
  | compact disk =>
    change P (g.compact disk).2.1
    unfold compact
    split
    · next flushed _ heq =>
      exact flush_fst_eq_ok (congrArg Prod.fst heq) ▸ hcount g.rebuild 0 hrebuild
    · exact hrebuild
  | createSnapshot | tagSnapshot | restoreSnapshot | deleteSnapshot =>
    simp [Operation.isAboutSnapshots] at hop

end Batch

/-! ### Consistency is kept -/

namespace Consistent

variable {g : Graph}

lemma empty (location : Option Path) : (Graph.empty location).Consistent where
  keyed := .empty
  described := Index.describes_empty []
  snapshots := by simp [Graph.empty]

/-- The count of changes has no part in consistency. -/
lemma withUnflushed (h : g.Consistent) (n : Nat) : { g with unflushed := n }.Consistent :=
  ⟨h.keyed, h.described, h.snapshots⟩

lemma setContents (h : g.Consistent) {contents : Contents} (hkeyed : contents.Keyed) :
    (g.setContents contents).Consistent :=
  ⟨hkeyed, Index.describes_scan g.fields hkeyed, h.snapshots⟩

lemma rebuild (h : g.Consistent) : g.rebuild.Consistent :=
  h.setContents h.keyed

lemma addNode (h : g.Consistent) (node : Node) : (g.addNode node).Consistent where
  keyed := h.keyed.insertNode node
  described := by
    unfold Graph.addNode
    cases hold : g.nodes[node.id]? with
    | none => exact h.described.insertNode hold
    | some old =>
      have hid : old.id = node.id := h.keyed.node hold
      exact h.described.replaceNode (by rw [hid]; exact hold) hid
  snapshots := h.snapshots

lemma addEdge (h : g.Consistent) (edge : Edge) : (g.addEdge edge).Consistent :=
  ⟨h.keyed.insertEdge edge, h.described.insertEdge edge, h.snapshots⟩

lemma dropEdge (h : g.Consistent) (key : EdgeKey) : (g.dropEdge key).Consistent :=
  ⟨h.keyed.eraseEdge key, h.described.eraseEdge key, h.snapshots⟩

lemma deleteEdge (h : g.Consistent) (key : EdgeKey) : (g.deleteEdge key).Consistent := by
  unfold Graph.deleteEdge
  split
  · exact (h.dropEdge key).withUnflushed _
  · exact h

lemma deleteNode (h : g.Consistent) (id : NodeId) : (g.deleteNode id).Consistent := by
  unfold Graph.deleteNode
  cases hnode : g.nodes[id]? with
  | none => exact h
  | some node =>
    obtain rfl : node.id = id := h.keyed.node hnode
    have hwithout : { g with
        nodes := g.nodes.erase node.id
        index := g.index.removeNode g.fields node
        unflushed := g.unflushed + 1 }.Consistent :=
      ⟨h.keyed.eraseNode node.id, h.described.eraseNode hnode, h.snapshots⟩
    exact List.foldlRecOn _ Graph.dropEdge hwithout fun g hg key _ => hg.dropEdge key

lemma addNodes (h : g.Consistent) (nodes : List Node) : (g.addNodes nodes).Consistent :=
  addNodes_keeps (fun _ node hg => hg.addNode node) h nodes

lemma addEdges (h : g.Consistent) (edges : List Edge) (skipValidation : Bool) :
    (g.addEdges edges skipValidation).Consistent :=
  addEdges_keeps (fun _ edge hg => hg.addEdge edge) h edges skipValidation

lemma clear (h : g.Consistent) : g.clear.Consistent :=
  (h.setContents .empty).withUnflushed _

lemma declareFields (h : g.Consistent) (decls : List FieldDecl) :
    (g.declareFields decls).Consistent :=
  ⟨h.keyed, Index.describes_scan _ h.keyed, h.snapshots⟩

lemma createSnapshot (h : g.Consistent) (tags : Tags) (now : Nat) :
    (g.createSnapshot tags now).2.Consistent := by
  refine ⟨h.keyed, h.described, fun {version snapshot} hsnapshot => ?_⟩
  simp only [Graph.createSnapshot, ExtTreeMap.getElem?_insert] at hsnapshot
  split at hsnapshot
  · exact Option.some.inj hsnapshot ▸ h.keyed
  · exact h.snapshots hsnapshot

lemma tagSnapshot (h : g.Consistent) {version : Nat} {tags : Tags} {g' : Graph}
    (hok : g.tagSnapshot version tags = .ok g') : g'.Consistent := by
  obtain ⟨kept, hkept, rfl⟩ := map_snapshot_eq_ok hok
  have hkeyed : kept.contents.Keyed := h.snapshots hkept
  refine ⟨h.keyed, h.described, fun {other snapshot} hsnapshot => ?_⟩
  simp only [ExtTreeMap.getElem?_insert] at hsnapshot
  split at hsnapshot
  · obtain rfl := Option.some.inj hsnapshot
    exact hkeyed
  · exact h.snapshots hsnapshot

lemma restoreSnapshot (h : g.Consistent) {version : Nat} {g' : Graph}
    (hok : g.restoreSnapshot version = .ok g') : g'.Consistent := by
  obtain ⟨kept, hkept, rfl⟩ := map_snapshot_eq_ok hok
  exact (h.setContents (h.snapshots hkept)).withUnflushed _

lemma deleteSnapshot (h : g.Consistent) {version : Nat} {g' : Graph}
    (hok : g.deleteSnapshot version = .ok g') : g'.Consistent := by
  obtain ⟨kept, hkept, rfl⟩ := map_snapshot_eq_ok hok
  refine ⟨h.keyed, h.described, fun {other snapshot} hsnapshot => ?_⟩
  simp only [ExtTreeMap.getElem?_erase] at hsnapshot
  split at hsnapshot
  · simp at hsnapshot
  · exact h.snapshots hsnapshot

lemma flush (h : g.Consistent) {disk : Disk} {g' : Graph} (hok : (g.flush disk).1 = .ok g') :
    g'.Consistent :=
  flush_fst_eq_ok hok ▸ h.withUnflushed 0

lemma compact (h : g.Consistent) (disk : Disk) : (g.compact disk).2.1.Consistent := by
  unfold Graph.compact
  split
  · next flushed _ heq => exact h.rebuild.flush (congrArg Prod.fst heq)
  · exact h.rebuild

lemma commitBatch (h : g.Consistent) (disk : Disk) (changedFiles : List String)
    (nodes : List Node) (edges : List Edge) :
    (g.commitBatch disk changedFiles nodes edges).2.1.Consistent :=
  commitBatch_keeps (fun _ id hg => hg.deleteNode id) (fun _ node hg => hg.addNode node)
    (fun _ edge hg => hg.addEdge edge) (fun _ hg => hg.withUnflushed 0) h disk changedFiles
    nodes edges

/-- Every operation keeps a graph consistent. -/
theorem perform (h : g.Consistent) (op : Operation) : (g.perform op).Consistent := by
  cases op with
  | addNodes nodes => exact h.addNodes nodes
  | deleteNode id => exact h.deleteNode id
  | addEdges edges skipValidation => exact h.addEdges edges skipValidation
  | deleteEdge key => exact h.deleteEdge key
  | declareFields decls => exact h.declareFields decls
  | rebuild => exact h.rebuild
  | clear => exact h.clear
  | commitBatch disk changedFiles nodes edges =>
    exact h.commitBatch disk changedFiles nodes edges
  | createSnapshot tags now => exact h.createSnapshot tags now
  | tagSnapshot version tags => exact unlessRefused_keeps h fun _ => h.tagSnapshot
  | restoreSnapshot version => exact unlessRefused_keeps h fun _ => h.restoreSnapshot
  | deleteSnapshot version => exact unlessRefused_keeps h fun _ => h.deleteSnapshot
  | flush disk => exact unlessRefused_keeps h fun _ => h.flush
  | compact disk => exact h.compact disk

/-- A graph read from an image is consistent, whatever the image lists. -/
lemma ofImage (location : Path) (image : Image) : (Graph.ofImage location image).Consistent := by
  have hempty : { Graph.empty (some location) with fields := image.fields }.Consistent :=
    ⟨.empty, Index.describes_empty image.fields, by simp [Graph.empty]⟩
  exact ((hempty.addNodes image.nodes).addEdges image.edges true).withUnflushed 0

end Consistent

lemma create_fst_eq_ok {disk : Disk} {location : Path} {g : Graph}
    (h : (create disk location).1 = .ok g) : g = .empty (some location) := by
  unfold create at h
  split at h
  · exact (Except.ok.inj h).symm
  · simp at h

/-- What is opened is new or comes from an image. -/
lemma load_eq_ok {disk : Disk} {location : Path} {g : Graph}
    (h : load disk location = .ok g) :
    g = .empty (some location) ∨ ∃ image, g = ofImage location image := by
  unfold load at h
  split at h
  · split at h
    · next image _ => exact .inr ⟨image, (Except.ok.inj h).symm⟩
    · simp at h
  · split at h
    · exact .inl (Except.ok.inj h).symm
    · simp at h

/-- Every reachable graph is consistent. -/
theorem Reachable.consistent {g : Graph} (h : Reachable g) : g.Consistent := by
  induction h with
  | ephemeral => exact .empty none
  | created h => exact create_fst_eq_ok (congrArg Prod.fst h) ▸ .empty _
  | opened h =>
    obtain rfl | ⟨image, rfl⟩ := load_eq_ok h
    · exact .empty _
    · exact .ofImage _ image
  | step op _ ih => exact ih.perform op

/-! ### What the index of every reachable graph has -/

/-- A property that the index of nothing has, and that entering and taking away one node or
one edge keep. -/
structure IndexInvariant (P : Index → Prop) : Prop where
  empty : P .empty
  addNode : ∀ (fields : List FieldDecl) {index : Index} (node : Node),
    P index → P (index.addNode fields node)
  removeNode : ∀ (fields : List FieldDecl) {index : Index} (node : Node),
    P index → P (index.removeNode fields node)
  addEdge : ∀ {index : Index} (key : EdgeKey), P index → P (index.addEdge key)
  removeEdge : ∀ {index : Index} (key : EdgeKey), P index → P (index.removeEdge key)

namespace IndexInvariant

variable {P : Index → Prop}

lemma scan (hP : IndexInvariant P) (fields : List FieldDecl) (contents : Contents) :
    P (.scan fields contents) := by
  have hnodes : P (contents.nodes.foldl (fun index _ node => index.addNode fields node)
      .empty) := by
    rw [ExtTreeMap.foldl_eq_foldl_toList]
    exact List.foldlRecOn _ _ hP.empty fun _ h entry _ => hP.addNode fields entry.2 h
  unfold Index.scan
  rw [ExtTreeMap.foldl_eq_foldl_toList]
  exact List.foldlRecOn _ _ hnodes fun _ h entry _ => hP.addEdge entry.1 h

lemma graphDeleteNode (hP : IndexInvariant P) {g : Graph} (h : P g.index) (id : NodeId) :
    P (g.deleteNode id).index := by
  unfold deleteNode
  split
  · exact h
  · next node _ =>
    exact List.foldlRecOn (motive := fun g => P (Graph.index g)) _ dropEdge
      (hP.removeNode g.fields node h) fun _ h key _ => hP.removeEdge key h

lemma graphAddNode (hP : IndexInvariant P) {g : Graph} (h : P g.index) (node : Node) :
    P (g.addNode node).index := by
  unfold Graph.addNode
  cases g.nodes[node.id]? with
  | none => exact hP.addNode g.fields node h
  | some old => exact hP.addNode g.fields node (hP.removeNode g.fields old h)

/-- Every operation keeps an invariant of the index. -/
lemma perform (hP : IndexInvariant P) {g : Graph} (h : P g.index) (op : Operation) :
    P (g.perform op).index := by
  cases hop : op.isAboutSnapshots with
  | false =>
    refine perform_keeps (P := fun g => P g.index) ?_ ?_ ?_ ?_ ?_ ?_ h hop
    · exact fun _ id h => hP.graphDeleteNode h id
    · exact fun _ node h => hP.graphAddNode h node
    · exact fun _ edge h => hP.addEdge edge.key h
    · exact fun _ key h => hP.removeEdge key h
    · exact fun _ fields contents _ => hP.scan fields contents
    · exact fun _ _ h => h
  | true =>
    cases op with
    | createSnapshot tags now => exact h
    | tagSnapshot version tags =>
      refine unlessRefused_keeps (P := fun g => P g.index) h fun g' hg' => ?_
      obtain ⟨kept, -, rfl⟩ := map_snapshot_eq_ok hg'
      exact h
    | restoreSnapshot version =>
      refine unlessRefused_keeps (P := fun g => P g.index) h fun g' hg' => ?_
      obtain ⟨kept, -, rfl⟩ := map_snapshot_eq_ok hg'
      exact hP.scan g.fields kept.contents
    | deleteSnapshot version =>
      refine unlessRefused_keeps (P := fun g => P g.index) h fun g' hg' => ?_
      obtain ⟨kept, -, rfl⟩ := map_snapshot_eq_ok hg'
      exact h
    | _ => simp [Operation.isAboutSnapshots] at hop

lemma ofImage (hP : IndexInvariant P) (location : Path) (image : Image) :
    P (Graph.ofImage location image).index := by
  have hnodes := addNodes_keeps (P := fun g => P g.index) (fun _ node h => hP.graphAddNode h node)
    (g := { Graph.empty (some location) with fields := image.fields }) hP.empty image.nodes
  exact addEdges_keeps (P := fun g => P g.index) (fun _ edge h => hP.addEdge edge.key h)
    hnodes image.edges true

/-- The index of every reachable graph has what is an invariant of indexes. -/
lemma reachable (hP : IndexInvariant P) {g : Graph} (h : Reachable g) : P g.index := by
  induction h with
  | ephemeral => exact hP.empty
  | created h =>
    obtain rfl := create_fst_eq_ok (congrArg Prod.fst h)
    exact hP.empty
  | opened h =>
    rcases load_eq_ok h with rfl | ⟨image, rfl⟩
    · exact hP.empty
    · exact hP.ofImage _ image
  | step op _ ih => exact hP.perform ih op

end IndexInvariant

/-! ### Graphs that come from others -/

/-- A graph comes from another by operations. -/
def Follows (g g' : Graph) : Prop :=
  ∃ ops, g' = g.performAll ops

namespace Follows

variable {g g' : Graph}

lemma refl (g : Graph) : g.Follows g := ⟨[], rfl⟩

lemma of_perform (g : Graph) (op : Operation) : g.Follows (g.perform op) := ⟨[op], rfl⟩

lemma of_flush {disk : Disk} (h : (g.flush disk).1 = .ok g') : g.Follows g' := by
  have hperform : g.perform (.flush disk) = g' := by
    change g.unlessRefused (g.flush disk).1 = g'
    rw [h]
    rfl
  exact ⟨[.flush disk], hperform.symm⟩

lemma reachable (h : g.Follows g') (hg : Reachable g) : Reachable g' := by
  obtain ⟨ops, rfl⟩ := h
  exact hg.performAll ops

end Follows

lemma deleteNode_location (g : Graph) (id : NodeId) : (g.deleteNode id).location = g.location := by
  unfold deleteNode
  split
  · rfl
  · exact List.foldlRecOn (motive := fun g' => Graph.location g' = g.location) _ dropEdge rfl
      fun _ h _ _ => h

/-- No operation moves a graph to another directory. -/
lemma perform_location (g : Graph) (op : Operation) : (g.perform op).location = g.location := by
  cases hop : op.isAboutSnapshots with
  | false =>
    refine perform_keeps (P := fun g' => g'.location = g.location) ?_ ?_ ?_ ?_ ?_ ?_ rfl hop
    · exact fun g' id h => (deleteNode_location g' id).trans h
    · exact fun _ _ h => h
    · exact fun _ _ h => h
    · exact fun _ _ h => h
    · exact fun _ _ _ h => h
    · exact fun _ _ h => h
  | true =>
    cases op with
    | createSnapshot tags now => rfl
    | tagSnapshot version tags | restoreSnapshot version | deleteSnapshot version =>
      refine unlessRefused_keeps (P := fun g' => g'.location = g.location) rfl fun g' hg' => ?_
      obtain ⟨kept, -, rfl⟩ := map_snapshot_eq_ok hg'
      rfl
    | _ => simp [Operation.isAboutSnapshots] at hop

lemma Follows.location_eq {g g' : Graph} (h : g.Follows g') : g'.location = g.location := by
  obtain ⟨ops, rfl⟩ := h
  exact List.foldlRecOn (motive := fun g' => Graph.location g' = g.location) ops perform rfl
    fun g' h op _ => (perform_location g' op).trans h

lemma ofImage_location (location : Path) (image : Image) :
    (ofImage location image).location = some location := by
  have hnodes := addNodes_keeps (P := fun g => g.location = some location) (fun _ _ h => h)
    (g := { empty (some location) with fields := image.fields }) rfl image.nodes
  exact addEdges_keeps (P := fun g => g.location = some location) (fun _ _ h => h) hnodes
    image.edges true

lemma load_location {disk : Disk} {location : Path} {g : Graph}
    (h : load disk location = .ok g) : g.location = some location := by
  rcases load_eq_ok h with rfl | ⟨image, rfl⟩
  · rfl
  · exact ofImage_location location image

/-- What is opened or made in a directory is a reachable graph that lies there. -/
lemma loadOrCreate_eq_ok {disk disk' : Disk} {location : Path} {g : Graph}
    (h : loadOrCreate disk location = (.ok g, disk')) :
    Reachable g ∧ g.location = some location := by
  unfold loadOrCreate at h
  split at h
  · have hload : load disk location = .ok g := (Prod.mk.inj h).1
    exact ⟨.opened hload, load_location hload⟩
  · have hcreate := create_fst_eq_ok (congrArg Prod.fst h)
    exact ⟨.created h, by rw [hcreate]; rfl⟩

end CodeGraph.Graph
