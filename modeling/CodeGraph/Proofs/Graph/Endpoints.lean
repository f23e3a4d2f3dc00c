import Mathlib
import CodeGraph.Proofs.Graph.Naming

/-!
# Edges end at nodes

Contents are `Anchored` when both ends of every edge are nodes.  Deleting a node takes away the
edges that the index lists at it, so it takes a graph whose index is right to see that none is
left behind: being anchored is kept together with being consistent, for a graph and its
snapshots (`Graph.Anchored`), and for the images on a disk (`Disk.Anchored`).

Two things can bring an edge without its ends: adding edges without validation, and a batch.
An operation is *careful* when it brings none (`Operation.isCareful`).  After careful operations
only, with images opened in between, every edge ends at nodes (`Tended.endpoints`); and a batch
keeps this only when it is careful (`Anchored.commitBatch_iff`).
-/

namespace CodeGraph

open Std (ExtTreeMap)

/-! ### Contents -/

/-- Both ends of every edge are nodes. -/
structure Contents.Anchored (contents : Contents) : Prop where
  ends : ∀ {key : EdgeKey} {edge : Edge}, contents.edges[key]? = some edge →
    edge.src ∈ contents.nodes ∧ edge.dst ∈ contents.nodes

namespace Contents

variable {contents : Contents}

lemma anchored_empty : Contents.empty.Anchored :=
  ⟨by simp [Contents.empty]⟩

lemma mem_without_nodes {gone : NodeId → Bool} {id : NodeId} :
    id ∈ (contents.without gone).nodes ↔ gone id = false ∧ id ∈ contents.nodes := by
  rw [← ExtTreeMap.isSome_getElem?_iff_mem, ← ExtTreeMap.isSome_getElem?_iff_mem,
    getElem?_without_nodes]
  cases gone id <;> simp

/-- Nodes may be taken out of keyed contents when the edges at them are taken out too. -/
lemma Anchored.without (h : contents.Anchored) (hkeyed : contents.Keyed) (gone : NodeId → Bool) :
    (contents.without gone).Anchored := by
  refine ⟨fun {key edge} hedge => ?_⟩
  rw [getElem?_without_edges] at hedge
  split at hedge
  · simp at hedge
  · next hends =>
    obtain rfl : edge.key = key := hkeyed.edge hedge
    obtain ⟨hsrc, hdst⟩ : gone edge.src = false ∧ gone edge.dst = false := by
      simpa [Edge.key] using hends
    obtain ⟨hsrcIn, hdstIn⟩ := h.ends hedge
    exact ⟨mem_without_nodes.2 ⟨hsrc, hsrcIn⟩, mem_without_nodes.2 ⟨hdst, hdstIn⟩⟩

end Contents

/-- An image lists both ends of every edge that it lists. -/
def Image.Anchored (image : Image) : Prop :=
  ∀ edge ∈ image.edges,
    edge.src ∈ image.nodes.map Node.id ∧ edge.dst ∈ image.nodes.map Node.id

/-- Every image on a disk lists both ends of its edges. -/
def Disk.Anchored (disk : Disk) : Prop :=
  disk.AllFiles fun content => ∀ image ∈ Image.decode? content, image.Anchored

namespace Graph

/-! ### Graphs -/

/-- A graph is consistent, and in its contents and those of its snapshots both ends of every
edge are nodes. -/
structure Anchored (g : Graph) : Prop where
  consistent : g.Consistent
  contents : g.toContents.Anchored
  snapshots : ∀ {version : Nat} {snapshot : Snapshot},
    g.snapshots[version]? = some snapshot → snapshot.contents.Anchored

lemma hasEndpoints_iff {g : Graph} {edge : Edge} :
    g.hasEndpoints edge = true ↔ edge.src ∈ g.nodes ∧ edge.dst ∈ g.nodes := by
  simp [hasEndpoints]

lemma mem_addNodes_nodes {g : Graph} {nodes : List Node} {id : NodeId} :
    id ∈ (g.addNodes nodes).nodes ↔ id ∈ nodes.map Node.id ∨ id ∈ g.nodes := by
  induction nodes generalizing g with
  | nil => simp [addNodes]
  | cons node nodes ih =>
    have hfirst : id ∈ (g.addNode node).nodes ↔ node.id = id ∨ id ∈ g.nodes := by
      simp [addNode, ExtTreeMap.mem_insert]
    change id ∈ ((g.addNode node).addNodes nodes).nodes ↔ _
    rw [ih, hfirst, List.map_cons, List.mem_cons]
    constructor
    · rintro (hlater | rfl | hold)
      · exact .inl (.inr hlater)
      · exact .inl (.inl rfl)
      · exact .inr hold
    · rintro ((rfl | hlater) | hold)
      · exact .inr (.inl rfl)
      · exact .inl hlater
      · exact .inr (.inr hold)

/-- A batch leaves the graph with everything replaced, flushed if that is possible. -/
lemma commitBatch_graph (g : Graph) (disk : Disk) (files : List String) (nodes : List Node)
    (edges : List Edge) : (g.commitBatch disk files nodes edges).2.1
      = (g.refilled files nodes edges).unlessRefused
          ((g.refilled files nodes edges).flush disk).1 := by
  unfold commitBatch refilled
  dsimp only
  split
  · next hflush => rw [hflush]; rfl
  · next hflush => rw [hflush]; rfl

lemma compact_snd (g : Graph) (disk : Disk) :
    (g.compact disk).2.1 = g.rebuild.unlessRefused (g.rebuild.flush disk).1 ∧
      (g.compact disk).2.2 = (g.rebuild.flush disk).2 := by
  unfold compact
  rcases g.rebuild.flush disk with ⟨failure | flushed, disk'⟩
  · exact ⟨rfl, rfl⟩
  · exact ⟨rfl, rfl⟩

namespace Anchored

variable {g : Graph}

lemma empty (location : Option Path) : (Graph.empty location).Anchored where
  consistent := .empty location
  contents := Contents.anchored_empty
  snapshots hsnapshot := by simp [Graph.empty] at hsnapshot

/-- The count of changes has no part in it. -/
lemma withUnflushed (h : g.Anchored) (n : Nat) : { g with unflushed := n }.Anchored :=
  ⟨h.consistent.withUnflushed n, h.contents, h.snapshots⟩

lemma flush (h : g.Anchored) (disk : Disk) : (g.unlessRefused (g.flush disk).1).Anchored :=
  unlessRefused_keeps h fun _ hflush => flush_fst_eq_ok hflush ▸ h.withUnflushed 0

lemma setContents (h : g.Anchored) {contents : Contents} (hkeyed : contents.Keyed)
    (hcontents : contents.Anchored) : (g.setContents contents).Anchored :=
  ⟨h.consistent.setContents hkeyed, hcontents, h.snapshots⟩

/-- A node that is replaced is still there. -/
lemma addNode (h : g.Anchored) (node : Node) : (g.addNode node).Anchored where
  consistent := h.consistent.addNode node
  contents := by
    refine ⟨fun hedge => ?_⟩
    obtain ⟨hsrc, hdst⟩ := h.contents.ends hedge
    exact ⟨ExtTreeMap.mem_insert.2 (.inr hsrc), ExtTreeMap.mem_insert.2 (.inr hdst)⟩
  snapshots := h.snapshots

lemma addNodes (h : g.Anchored) (nodes : List Node) : (g.addNodes nodes).Anchored :=
  addNodes_keeps (fun _ node hg => hg.addNode node) h nodes

lemma addEdge (h : g.Anchored) {edge : Edge} (hends : g.hasEndpoints edge = true) :
    (g.addEdge edge).Anchored where
  consistent := h.consistent.addEdge edge
  contents := by
    refine ⟨fun {key other} hedge => ?_⟩
    simp only [Graph.addEdge, ExtTreeMap.getElem?_insert] at hedge
    split at hedge
    · exact Option.some.inj hedge ▸ hasEndpoints_iff.1 hends
    · exact h.contents.ends hedge
  snapshots := h.snapshots

/-- Edges may be added exactly when their ends are there: the last edge under a key stays, and
all edges under one key have the same ends. -/
lemma foldl_addEdge_iff (h : g.Anchored) (edges : List Edge) :
    (edges.foldl Graph.addEdge g).Anchored ↔ ∀ edge ∈ edges, g.hasEndpoints edge = true := by
  obtain ⟨hedges, hnodes, -⟩ := foldl_addEdge_contents g edges
  constructor
  · intro hadded edge hedge
    obtain ⟨last, hlast⟩ : ∃ last, lastUnder Edge.key edges edge.key = some last := by
      refine Option.isSome_iff_exists.1 (List.find?_isSome.2 ⟨edge, ?_, ?_⟩)
      · exact List.mem_reverse.2 hedge
      · simp
    have hkey : last.key = edge.key := by
      simpa using List.find?_some hlast
    have hstored : (edges.foldl Graph.addEdge g).edges[edge.key]? = some last := by
      rw [hedges, getElem?_foldl_insert, hlast, Option.some_or]
    obtain ⟨hsrc, hdst⟩ := hadded.contents.ends hstored
    rw [hnodes] at hsrc hdst
    obtain ⟨hsameSrc, hsameDst, -⟩ := EdgeKey.mk.inj hkey
    exact hasEndpoints_iff.2 ⟨hsameSrc ▸ hsrc, hsameDst ▸ hdst⟩
  · intro hends
    clear hedges hnodes
    induction edges generalizing g with
    | nil => exact h
    | cons edge edges ih =>
      have hfirst := h.addEdge (hends edge List.mem_cons_self)
      exact ih hfirst fun other hother => hends other (List.mem_cons_of_mem edge hother)

/-- Edges that are validated may be added. -/
lemma addEdges (h : g.Anchored) (edges : List Edge) : (g.addEdges edges false).Anchored :=
  (h.foldl_addEdge_iff _).2 fun _ hedge => (List.mem_filter.1 hedge).2

lemma dropEdge (h : g.Anchored) (key : EdgeKey) : (g.dropEdge key).Anchored where
  consistent := h.consistent.dropEdge key
  contents := by
    refine ⟨fun {other edge} hedge => ?_⟩
    simp only [Graph.dropEdge, ExtTreeMap.getElem?_erase] at hedge
    split at hedge
    · simp at hedge
    · exact h.contents.ends hedge
  snapshots := h.snapshots

lemma deleteEdge (h : g.Anchored) (key : EdgeKey) : (g.deleteEdge key).Anchored := by
  unfold Graph.deleteEdge
  split
  · exact (h.dropEdge key).withUnflushed _
  · exact h

lemma deleteNode_snapshots (g : Graph) (id : NodeId) :
    (g.deleteNode id).snapshots = g.snapshots := by
  unfold Graph.deleteNode
  split
  · rfl
  · exact List.foldlRecOn (motive := fun g' => Graph.snapshots g' = g.snapshots) _ Graph.dropEdge
      rfl fun _ h _ _ => h

/-- A deleted node takes all edges with it that end at it, since the index lists them. -/
lemma deleteNode (h : g.Anchored) (id : NodeId) : (g.deleteNode id).Anchored where
  consistent := h.consistent.deleteNode id
  contents := by
    rw [h.consistent.deleteNode_contents id]
    exact h.contents.without h.consistent.keyed _
  snapshots hsnapshot := h.snapshots (deleteNode_snapshots g id ▸ hsnapshot)

/-- Taking out files, however often one is named, and adding nodes. -/
lemma refilled_nil (h : g.Anchored) (files : List String) (nodes : List Node) :
    (g.refilled files nodes []).Anchored :=
  have hcleared := removeFiles_keeps (P := Anchored) (fun _ id hg => hg.deleteNode id)
    (c := ⟨g, 0, ∅, ∅, ∅⟩) h files
  hcleared.addNodes nodes

lemma refilled_iff (h : g.Anchored) (files : List String) (nodes : List Node)
    (edges : List Edge) : (g.refilled files nodes edges).Anchored ↔
      ∀ edge ∈ edges, (g.refilled files nodes []).hasEndpoints edge = true :=
  (h.refilled_nil files nodes).foldl_addEdge_iff edges

/-- A batch leaves no edge without its ends exactly when the ends of all its edges are there
once its nodes have been added, whether flushing succeeds or not. -/
theorem commitBatch_iff (h : g.Anchored) (disk : Disk) (files : List String)
    (nodes : List Node) (edges : List Edge) :
    (g.commitBatch disk files nodes edges).2.1.Anchored ↔
      ∀ edge ∈ edges, (g.refilled files nodes []).hasEndpoints edge = true := by
  rw [← h.refilled_iff files nodes edges, commitBatch_graph]
  constructor
  · intro hafter
    rcases hflush : ((g.refilled files nodes edges).flush disk).1 with failure | flushed
    · rwa [hflush] at hafter
    · rw [hflush, flush_fst_eq_ok hflush] at hafter
      exact hafter.withUnflushed (g.refilled files nodes edges).unflushed
  · intro hfilled
    exact hfilled.flush disk

lemma createSnapshot (h : g.Anchored) (tags : Tags) (now : Nat) :
    (g.createSnapshot tags now).2.Anchored := by
  refine ⟨h.consistent.createSnapshot tags now, h.contents, fun {version snapshot} hkept => ?_⟩
  simp only [Graph.createSnapshot, ExtTreeMap.getElem?_insert] at hkept
  split at hkept
  · exact Option.some.inj hkept ▸ h.contents
  · exact h.snapshots hkept

lemma tagSnapshot (h : g.Anchored) {version : Nat} {tags : Tags} {g' : Graph}
    (hok : g.tagSnapshot version tags = .ok g') : g'.Anchored := by
  have hconsistent := h.consistent.tagSnapshot hok
  obtain ⟨kept, hkept, rfl⟩ := map_snapshot_eq_ok hok
  have hanchored : kept.contents.Anchored := h.snapshots hkept
  refine ⟨hconsistent, h.contents, fun {other snapshot} hsnapshot => ?_⟩
  simp only [ExtTreeMap.getElem?_insert] at hsnapshot
  split at hsnapshot
  · obtain rfl := Option.some.inj hsnapshot
    exact hanchored
  · exact h.snapshots hsnapshot

lemma restoreSnapshot (h : g.Anchored) {version : Nat} {g' : Graph}
    (hok : g.restoreSnapshot version = .ok g') : g'.Anchored := by
  obtain ⟨kept, hkept, rfl⟩ := map_snapshot_eq_ok hok
  have hkeyed := h.consistent.snapshots hkept
  exact (h.setContents hkeyed (h.snapshots hkept)).withUnflushed _

lemma deleteSnapshot (h : g.Anchored) {version : Nat} {g' : Graph}
    (hok : g.deleteSnapshot version = .ok g') : g'.Anchored := by
  have hconsistent := h.consistent.deleteSnapshot hok
  obtain ⟨kept, hkept, rfl⟩ := map_snapshot_eq_ok hok
  refine ⟨hconsistent, h.contents, fun {other snapshot} hsnapshot => ?_⟩
  simp only [ExtTreeMap.getElem?_erase] at hsnapshot
  split at hsnapshot
  · simp at hsnapshot
  · exact h.snapshots hsnapshot

end Anchored

/-! ### Careful operations -/

/-- Whether an operation brings no edge without its ends: edges are validated, and those of a
batch have their ends in the graph once the nodes of the batch have been added. -/
def Operation.isCareful (g : Graph) : Operation → Bool
  | addEdges _ skipValidation => !skipValidation
  | commitBatch _ files nodes edges => edges.all (g.refilled files nodes []).hasEndpoints
  | _ => true

/-- Every careful operation keeps a graph anchored. -/
theorem Anchored.perform {g : Graph} (h : g.Anchored) {op : Operation}
    (hop : op.isCareful g = true) : (g.perform op).Anchored := by
  have hrebuild : g.rebuild.Anchored := h.setContents h.consistent.keyed h.contents
  cases op with
  | addNodes nodes => exact h.addNodes nodes
  | deleteNode id => exact h.deleteNode id
  | addEdges edges skipValidation =>
    obtain rfl : skipValidation = false := by simpa [Operation.isCareful] using hop
    exact h.addEdges edges
  | deleteEdge key => exact h.deleteEdge key
  | declareFields decls => exact ⟨h.consistent.declareFields decls, h.contents, h.snapshots⟩
  | rebuild => exact hrebuild
  | clear => exact (h.setContents .empty Contents.anchored_empty).withUnflushed _
  | commitBatch disk files nodes edges =>
    exact (h.commitBatch_iff disk files nodes edges).2 (List.all_eq_true.1 hop)
  | createSnapshot tags now => exact h.createSnapshot tags now
  | tagSnapshot version tags => exact unlessRefused_keeps h fun _ => h.tagSnapshot
  | restoreSnapshot version => exact unlessRefused_keeps h fun _ => h.restoreSnapshot
  | deleteSnapshot version => exact unlessRefused_keeps h fun _ => h.deleteSnapshot
  | flush disk => exact h.flush disk
  | compact disk =>
    change (g.compact disk).2.1.Anchored
    rw [(compact_snd g disk).1]
    exact hrebuild.flush disk

/-! ### Images -/

lemma anchored_ofImage (location : Path) {image : Image} (h : image.Anchored) :
    (ofImage location image).Anchored := by
  have hblank : { Graph.empty (some location) with fields := image.fields }.Anchored :=
    ⟨⟨.empty, Index.describes_empty image.fields, by simp [Graph.empty]⟩,
      Contents.anchored_empty, by simp [Graph.empty]⟩
  have hnodes := hblank.addNodes image.nodes
  refine ((hnodes.foldl_addEdge_iff image.edges).2 fun edge hedge => ?_).withUnflushed 0
  obtain ⟨hsrc, hdst⟩ := h edge hedge
  exact hasEndpoints_iff.2
    ⟨mem_addNodes_nodes.2 (.inl hsrc), mem_addNodes_nodes.2 (.inl hdst)⟩

lemma Anchored.image {g : Graph} (h : g.Anchored) : g.image.Anchored := by
  have hlisted : ∀ id ∈ g.nodes, id ∈ g.image.nodes.map Node.id := by
    intro id hid
    obtain ⟨node, hnode⟩ : ∃ node, g.nodes[id]? = some node :=
      Option.isSome_iff_exists.1 (ExtTreeMap.isSome_getElem?_iff_mem.2 hid)
    have hentry : (id, node) ∈ g.nodes.toList := ExtTreeMap.mem_toList_iff_getElem?_eq_some.2 hnode
    exact List.mem_map.2
      ⟨node, List.mem_map.2 ⟨(id, node), hentry, rfl⟩, h.consistent.keyed.node hnode⟩
  intro edge hedge
  obtain ⟨⟨key, stored⟩, hentry, rfl⟩ := List.mem_map.1 hedge
  obtain ⟨hsrc, hdst⟩ := h.contents.ends (ExtTreeMap.mem_toList_iff_getElem?_eq_some.1 hentry)
  exact ⟨hlisted _ hsrc, hlisted _ hdst⟩

lemma anchored_of_load {disk : Disk} (h : disk.Anchored) {location : Path} {g : Graph}
    (hload : load disk location = .ok g) : g.Anchored := by
  unfold load at hload
  split at hload
  · split at hload
    · next image hfound =>
      obtain rfl := Except.ok.inj hload
      obtain ⟨content, hread, hdecode⟩ := Option.bind_eq_some_iff.1 hfound
      exact anchored_ofImage location (h.read? hread image hdecode)
    · simp at hload
  · split at hload
    · exact Except.ok.inj hload ▸ .empty _
    · simp at hload

/-! ### Runs -/

/-- A graph that was flushed, or could not be, is flushed to the same disk. -/
lemma flush_snd_unlessRefused (g : Graph) (disk : Disk) :
    ((g.unlessRefused (g.flush disk).1).flush disk).2 = (g.flush disk).2 := by
  cases hflush : (g.flush disk).1 with
  | ok flushed =>
    rw [flush_fst_eq_ok hflush]
    exact flush_snd_withUnflushed g 0 disk
  | error failure => rfl

/-- What is written is the graph that the operation leaves, whether writing succeeds or not. -/
lemma diskAfter_eq_flush {g : Graph} {disk : Disk} {op : Operation} (hop : op.flushes = true) :
    op.diskAfter g disk = ((g.perform (op.at disk)).flush disk).2 := by
  cases op with
  | commitBatch other files nodes edges =>
    change (g.commitBatch disk files nodes edges).2.2
      = ((g.commitBatch disk files nodes edges).2.1.flush disk).2
    rw [commitBatch_graph, flush_snd_unlessRefused]
    exact commitBatch_disk g disk files nodes edges
  | flush other => exact (flush_snd_unlessRefused g disk).symm
  | compact other =>
    obtain ⟨hgraph, hdisk⟩ := compact_snd g disk
    change (g.compact disk).2.2 = ((g.compact disk).2.1.flush disk).2
    rw [hgraph, flush_snd_unlessRefused, hdisk]
  | _ => simp [Operation.flushes] at hop

/-- The graphs that come about by careful operations from one in which nothing is, with the
disk on which they lie.  What is opened takes the place of the graph; there are no images on
the disk at first, or only anchored ones, and each that is written can be decoded again, as all
can whose texts and lists are shorter than `Bytes.bound 8` (`Image.decode?_encode`). -/
inductive Tended : Graph → Disk → Prop
  | new {disk : Disk} (location : Option Path) (hdisk : disk.Anchored) :
    Tended (.empty location) disk
  | step {g : Graph} {disk : Disk} (op : Operation) (h : Tended g disk)
    (hop : op.isCareful g = true)
    (hlegible : op.flushes = true → (g.perform (op.at disk)).Legible) :
    Tended (performOn (g, disk) op).1 (performOn (g, disk) op).2
  | opened {g g' : Graph} {disk : Disk} {location : Path} (h : Tended g disk)
    (hload : load disk location = .ok g') : Tended g' disk

lemma Operation.isCareful_at (g : Graph) (op : Operation) (disk : Disk) :
    (op.at disk).isCareful g = op.isCareful g := by
  cases op <;> rfl

/-- Everything is anchored: the graph, its snapshots and the images on the disk. -/
lemma Tended.anchored {g : Graph} {disk : Disk} (h : Tended g disk) :
    g.Anchored ∧ disk.Anchored := by
  induction h with
  | new location hdisk => exact ⟨.empty location, hdisk⟩
  | @step g disk op _ hop hlegible ih =>
    obtain ⟨hg, hdisk⟩ := ih
    have hafter : (g.perform (op.at disk)).Anchored :=
      hg.perform ((op.isCareful_at g disk).trans hop)
    refine ⟨hafter, ?_⟩
    change (op.diskAfter g disk).Anchored
    cases hflushes : op.flushes with
    | true =>
      rw [diskAfter_eq_flush hflushes]
      refine allFiles_flush hdisk fun image himage => ?_
      rw [hlegible hflushes, Option.mem_some_iff] at himage
      exact himage ▸ hafter.image
    | false => rwa [diskAfter_eq_self hflushes]
  | opened _ hload ih => exact ⟨anchored_of_load ih.2 hload, ih.2⟩

/-- After careful operations in any number and order, with graphs opened from the disk in
between, both ends of every edge are nodes of the graph, and both ends of every edge in a
snapshot are nodes of the snapshot. -/
theorem Tended.endpoints {g : Graph} {disk : Disk} (h : Tended g disk) :
    (∀ (key : EdgeKey) (edge : Edge), g.edges[key]? = some edge →
      edge.src ∈ g.nodes ∧ edge.dst ∈ g.nodes) ∧
    ∀ (version : Nat) (snapshot : Snapshot), g.snapshots[version]? = some snapshot →
      ∀ (key : EdgeKey) (edge : Edge), snapshot.contents.edges[key]? = some edge →
        edge.src ∈ snapshot.contents.nodes ∧ edge.dst ∈ snapshot.contents.nodes := by
  obtain ⟨hg, -⟩ := h.anchored
  constructor
  · intro key edge hedge
    exact hg.contents.ends hedge
  · intro version snapshot hsnapshot key edge hedge
    exact (hg.snapshots hsnapshot).ends hedge

/-- Operations that are careful whatever the graph is, and do not flush. -/
lemma Tended.performAll {g : Graph} {disk : Disk} (h : Tended g disk) {ops : List Operation}
    (hops : ∀ op ∈ ops, op.flushes = false ∧ ∀ g, op.isCareful g = true) :
    Tended (g.performAll ops) disk := by
  refine List.foldlRecOn (motive := fun g => Tended g disk) ops Graph.perform h ?_
  intro g hg op hop
  obtain ⟨hflushes, hcareful⟩ := hops op hop
  have hstep := hg.step op (hcareful g) (by simp [hflushes])
  have hsame : op.at disk = op := by
    cases op <;> first | rfl | simp [Operation.flushes] at hflushes
  simp only [performOn, hsame, diskAfter_eq_self hflushes] at hstep
  exact hstep

/-- A node in a file. -/
def nodeIn (file : String) (n : Nat) : Node :=
  { bareNode n none with file := some file }

/-- Three nodes with a loop, an edge within a file, one between files, and one that is refused
because it would dangle; a node is deleted and comes back with a snapshot. -/
def tendedRun : List Operation :=
  [.addNodes [nodeIn "a" 1, nodeIn "a" 2, nodeIn "b" 3],
    .addEdges [⟨.ofNat 1, .ofNat 1, none, none⟩, ⟨.ofNat 1, .ofNat 2, some "calls", none⟩,
      ⟨.ofNat 2, .ofNat 3, none, none⟩, ⟨.ofNat 3, .ofNat 9, none, none⟩] false,
    .createSnapshot ∅ 0, .deleteNode (.ofNat 1), .restoreSnapshot 1]

/-- A batch over files that share an edge, one of them named twice. -/
def tendedBatch : Operation :=
  .commitBatch homeDisk ["a", "b", "a"] [nodeIn "b" 3, nodeIn "c" 4]
    [⟨.ofNat 4, .ofNat 3, none, none⟩, ⟨.ofNat 4, .ofNat 4, some "calls", none⟩]

/-- The graph before the batch, with three edges. -/
def tended : Graph := (empty (some ⟨"/db"⟩)).performAll tendedRun

/-- The graph that the batch makes of it. -/
def tendedFilled : Graph :=
  tended.refilled ["a", "b", "a"] [nodeIn "b" 3, nodeIn "c" 4]
    [⟨.ofNat 4, .ofNat 3, none, none⟩, ⟨.ofNat 4, .ofNat 4, some "calls", none⟩]

theorem endpoints_tended : ∃ opened, Tended opened (performOn (tended, homeDisk) tendedBatch).2 ∧
    tended.edges.keys.map EdgeKey.src = [.ofNat 1, .ofNat 1, .ofNat 2] ∧
    opened.edges.keys.map EdgeKey.dst = [.ofNat 3, .ofNat 4] ∧
    (∀ (key : EdgeKey) (edge : Edge), opened.edges[key]? = some edge →
      edge.src ∈ opened.nodes ∧ edge.dst ∈ opened.nodes) := by
  have hhome : homeDisk.Anchored := Disk.AllFiles.empty.insertDirectory ["db"]
  have hquiet : ∀ op ∈ tendedRun, op.flushes = false ∧ ∀ g, op.isCareful g = true := by
    simp [tendedRun, Operation.flushes, Operation.isCareful]
  have hbefore : Tended tended homeDisk :=
    (Tended.new (some ⟨"/db"⟩) hhome).performAll hquiet
  have hcareful : tendedBatch.isCareful tended = true := by decide +kernel
  have hlegible : tendedFilled.Legible := Image.decode?_encode (by decide +kernel)
  have hlocation : tendedFilled.location = some ⟨"/db"⟩ := by decide +kernel
  have hflush := flush_of_writeImage hlocation (writeImage_home tendedFilled.image)
  have hgraph : tended.perform tendedBatch = { tendedFilled with unflushed := 0 } := by
    change (tended.commitBatch homeDisk _ _ _).2.1 = _
    rw [commitBatch_graph]
    change tendedFilled.unlessRefused (tendedFilled.flush homeDisk).1 = _
    rw [hflush]
    rfl
  have hdisk : (performOn (tended, homeDisk) tendedBatch).2
      = (writeImage homeDisk ⟨"/db"⟩ tendedFilled.image).2 := by
    change (tended.commitBatch homeDisk _ _ _).2.2 = _
    rw [commitBatch_disk]
    exact congrArg Prod.snd hflush
  have hafter := hbefore.step tendedBatch hcareful fun _ => by
    change (tended.perform tendedBatch).Legible
    rw [hgraph]
    exact hlegible
  have hload : load (performOn (tended, homeDisk) tendedBatch).2 ⟨"/db"⟩
      = .ok (ofImage ⟨"/db"⟩ tendedFilled.image) := by
    rw [hdisk]
    exact load_of_writeImage hlegible (Prod.ext (writeImage_home tendedFilled.image) rfl)
  have hopened := hafter.opened hload
  exact ⟨_, hopened, by decide +kernel, by decide +kernel, hopened.endpoints.1⟩

end Graph

end CodeGraph
