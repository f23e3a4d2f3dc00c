import Mathlib
import CodeGraph.Proofs.Graph.Batch
import CodeGraph.Proofs.NodeId
import CodeGraph.Server.Changes

/-!
# Names lead back to nodes

A node keeps the text that a client gave it unless that is a canonical decimal.  It is `Named`
when reading this text gives the identifier of the node, which is all that is needed for the
name in messages to be read back (`Node.Named.parse_displayName`).  The digest behind
identifiers may be any function, with as many collisions as it likes: a client that uses
another text for the same identifier writes to the same node, and then that text is kept.

* Every node that a message describes is named (`Node.named_ofWire`), and its name in messages
  is the one that the client used (`Node.displayName_ofWire`).
* A graph is named when its nodes and those of its snapshots are.  All that requests do to
  graphs keeps this (`Request.named_change`), and so does the way over the disk, where images
  are decoded as they were encoded (`Graph.Named.flush_disk`, `Graph.named_of_load`).
-/

namespace CodeGraph

open Std (ExtTreeMap)

/-! ### Nodes -/

/-- A text that is kept with a node is no canonical decimal and is read as the identifier of
the node. -/
def Node.Named (node : Node) : Prop :=
  ∀ name ∈ node.semanticId, NodeId.isNumeric name = false ∧ NodeId.parse name = node.id

namespace Node

lemma named_ofWire (node : Wire.Node) : (ofWire node).Named := by
  intro name hname
  unfold ofWire at hname ⊢
  cases hnumeric : NodeId.isNumeric (node.semanticId.getD node.id) with
  | true => simp [hnumeric] at hname
  | false =>
    obtain rfl : node.semanticId.getD node.id = name := by simpa [hnumeric] using hname
    exact ⟨hnumeric, rfl⟩

/-- The name of a node in messages is the one that the client used. -/
theorem displayName_ofWire (node : Wire.Node) :
    (ofWire node).displayName = node.semanticId.getD node.id := by
  simp only [displayName, ofWire]
  cases hnumeric : NodeId.isNumeric (node.semanticId.getD node.id) with
  | true => exact NodeId.isNumeric_iff.1 hnumeric
  | false => rfl

/-- The name of a node in messages is read as its identifier. -/
theorem Named.parse_displayName {node : Node} (h : node.Named) :
    NodeId.parse node.displayName = node.id := by
  unfold displayName
  cases hname : node.semanticId with
  | none => exact NodeId.parse_text node.id
  | some name => exact (h name hname).2

end Node

/-! ### Graphs -/

/-- All nodes are named. -/
def Contents.Named (contents : Contents) : Prop :=
  ∀ (id : NodeId) (node : Node), contents.nodes[id]? = some node → node.Named

lemma Contents.Named.empty : Contents.empty.Named := fun _ _ hnode => by
  simp [Contents.empty] at hnode

/-- In every image on a disk all nodes are named. -/
def Disk.Named (disk : Disk) : Prop :=
  disk.AllFiles fun content =>
    ∀ image ∈ Image.decode? content, ∀ node ∈ image.nodes, node.Named

namespace Graph

/-- All nodes of a graph and of its snapshots are named. -/
structure Named (g : Graph) : Prop where
  contents : g.toContents.Named
  snapshots : ∀ {version : Nat} {snapshot : Snapshot},
    g.snapshots[version]? = some snapshot → snapshot.contents.Named

/-- The image of a graph is decoded as it was encoded. -/
def Legible (g : Graph) : Prop :=
  Image.decode? g.image.encode = some g.image

namespace Named

variable {g : Graph}

lemma empty (location : Option Path) : (Graph.empty location).Named where
  contents := .empty
  snapshots hsnapshot := by simp [Graph.empty] at hsnapshot

/-- Only the nodes and the snapshots have a part in it. -/
lemma congr (h : g.Named) {g' : Graph} (hnodes : g'.nodes = g.nodes)
    (hsnapshots : g'.snapshots = g.snapshots) : g'.Named where
  contents id node hnode := h.contents id node (hnodes ▸ hnode)
  snapshots hsnapshot := h.snapshots (hsnapshots ▸ hsnapshot)

lemma setContents (h : g.Named) {contents : Contents} (hcontents : contents.Named) :
    (g.setContents contents).Named :=
  ⟨hcontents, h.snapshots⟩

lemma addNode (h : g.Named) {node : Node} (hnode : node.Named) : (g.addNode node).Named where
  contents id found hfound := by
    simp only [Graph.addNode, ExtTreeMap.getElem?_insert] at hfound
    split at hfound
    · exact Option.some.inj hfound ▸ hnode
    · exact h.contents id found hfound
  snapshots := h.snapshots

lemma addNodes (h : g.Named) {nodes : List Node} (hnodes : ∀ node ∈ nodes, node.Named) :
    (g.addNodes nodes).Named :=
  List.foldlRecOn nodes Graph.addNode h fun _ hg node hnode => hg.addNode (hnodes node hnode)

lemma addEdges (h : g.Named) (edges : List Edge) (skipValidation : Bool) :
    (g.addEdges edges skipValidation).Named :=
  addEdges_keeps (fun _ _ hg => hg.congr rfl rfl) h edges skipValidation

lemma deleteNode (h : g.Named) (id : NodeId) : (g.deleteNode id).Named := by
  unfold Graph.deleteNode
  split
  · exact h
  · refine List.foldlRecOn _ dropEdge ⟨fun other node hnode => ?_, h.snapshots⟩
      fun _ hg key _ => hg.congr rfl rfl
    simp only [ExtTreeMap.getElem?_erase] at hnode
    split at hnode
    · simp at hnode
    · exact h.contents other node hnode

lemma deleteEdge (h : g.Named) (key : EdgeKey) : (g.deleteEdge key).Named := by
  unfold Graph.deleteEdge
  split
  · exact h.congr rfl rfl
  · exact h

lemma refilled (h : g.Named) (files : List String) {nodes : List Node}
    (hnodes : ∀ node ∈ nodes, node.Named) (edges : List Edge) :
    (g.refilled files nodes edges).Named := by
  have hcleared := removeFiles_keeps (P := Named) (fun _ id hg => hg.deleteNode id)
    (c := ⟨g, 0, ∅, ∅, ∅⟩) h files
  exact (hcleared.addNodes hnodes).addEdges edges true

lemma createSnapshot (h : g.Named) (tags : Tags) (now : Nat) :
    (g.createSnapshot tags now).2.Named := by
  refine ⟨h.contents, fun {version snapshot} hsnapshot => ?_⟩
  simp only [Graph.createSnapshot, ExtTreeMap.getElem?_insert] at hsnapshot
  split at hsnapshot
  · exact Option.some.inj hsnapshot ▸ h.contents
  · exact h.snapshots hsnapshot

lemma tagSnapshot (h : g.Named) {version : Nat} {tags : Tags} {g' : Graph}
    (hok : g.tagSnapshot version tags = .ok g') : g'.Named := by
  obtain ⟨kept, hkept, rfl⟩ := map_snapshot_eq_ok hok
  have hnamed : kept.contents.Named := h.snapshots hkept
  refine ⟨h.contents, fun {other snapshot} hsnapshot => ?_⟩
  simp only [ExtTreeMap.getElem?_insert] at hsnapshot
  split at hsnapshot
  · obtain rfl := Option.some.inj hsnapshot
    exact hnamed
  · exact h.snapshots hsnapshot

lemma restoreSnapshot (h : g.Named) {version : Nat} {g' : Graph}
    (hok : g.restoreSnapshot version = .ok g') : g'.Named := by
  obtain ⟨kept, hkept, rfl⟩ := map_snapshot_eq_ok hok
  exact (h.setContents (h.snapshots hkept)).congr rfl rfl

lemma deleteSnapshot (h : g.Named) {version : Nat} {g' : Graph}
    (hok : g.deleteSnapshot version = .ok g') : g'.Named := by
  obtain ⟨kept, hkept, rfl⟩ := map_snapshot_eq_ok hok
  refine ⟨h.contents, fun {other snapshot} hsnapshot => ?_⟩
  simp only [ExtTreeMap.getElem?_erase] at hsnapshot
  split at hsnapshot
  · simp at hsnapshot
  · exact h.snapshots hsnapshot

end Named

/-- In a named graph the name of an identifier is read as this identifier, whether there is a
node or not. -/
theorem Named.parse_displayName {g : Graph} (h : g.Named) (hkeyed : g.toContents.Keyed)
    (id : NodeId) : NodeId.parse (g.displayName id) = id := by
  unfold displayName node?
  cases hnode : g.nodes[id]? with
  | none => exact NodeId.parse_text id
  | some node =>
    have hnamed := (h.contents id node hnode).parse_displayName
    rw [hkeyed.node hnode] at hnamed
    have hid : node.id = id := hkeyed.node hnode
    rw [Node.displayName, hid] at hnamed
    exact hnamed

/-! ### Images -/

lemma named_ofImage (location : Path) {image : Image} (h : ∀ node ∈ image.nodes, node.Named) :
    (ofImage location image).Named := by
  have hempty : { Graph.empty (some location) with fields := image.fields }.Named :=
    (Named.empty (some location)).congr rfl rfl
  exact ((hempty.addNodes h).addEdges image.edges true).congr rfl rfl

/-- What is opened on a disk with named images is named. -/
lemma named_of_load {disk : Disk} (h : disk.Named) {location : Path} {g : Graph}
    (hload : load disk location = .ok g) : g.Named := by
  unfold load at hload
  split at hload
  · split at hload
    · next image hfound =>
      obtain rfl := Except.ok.inj hload
      obtain ⟨content, hread, hdecode⟩ := Option.bind_eq_some_iff.1 hfound
      exact named_ofImage location (h.read? hread image hdecode)
    · simp at hload
  · split at hload
    · exact Except.ok.inj hload ▸ .empty _
    · simp at hload

lemma create_snd_named {disk : Disk} (h : disk.Named) (location : Path) :
    (create disk location).2.Named := by
  have hmade := h.createDirectory location
  unfold create
  split
  · next heq => rwa [heq] at hmade
  · next heq => rwa [heq] at hmade

/-- Opening or making a graph keeps the images on the disk named, and so is the graph. -/
lemma named_of_loadOrCreate {disk : Disk} (h : disk.Named) (location : Path) :
    (loadOrCreate disk location).2.Named ∧
      ∀ g, (loadOrCreate disk location).1 = .ok g → g.Named := by
  unfold loadOrCreate
  split
  · exact ⟨h, fun g hg => named_of_load h hg⟩
  · exact ⟨create_snd_named h location, fun g hg => create_fst_eq_ok hg ▸ .empty _⟩

lemma writeImage_snd_named {disk : Disk} (h : disk.Named) (location : Path) {image : Image}
    (hdecode : Image.decode? image.encode = some image)
    (himage : ∀ node ∈ image.nodes, node.Named) : (writeImage disk location image).2.Named := by
  refine allFiles_writeImage h location fun other hother => ?_
  rw [hdecode, Option.mem_some_iff] at hother
  exact hother ▸ himage

namespace Named

variable {g : Graph} {disk : Disk}

lemma image (h : g.Named) : ∀ node ∈ g.image.nodes, node.Named := by
  intro node hnode
  obtain ⟨⟨id, stored⟩, hentry, rfl⟩ := List.mem_map.1 hnode
  exact h.contents id stored (ExtTreeMap.mem_toList_iff_getElem?_eq_some.1 hentry)

/-- Flushing keeps the images on the disk named. -/
lemma flush_disk (h : g.Named) (hlegible : g.Legible) (hdisk : disk.Named) :
    (g.flush disk).2.Named := by
  refine allFiles_flush hdisk fun other hother => ?_
  rw [hlegible, Option.mem_some_iff] at hother
  exact hother ▸ h.image

lemma flush (h : g.Named) {g' : Graph} (hok : (g.flush disk).1 = .ok g') : g'.Named :=
  flush_fst_eq_ok hok ▸ h.congr rfl rfl

end Named

/-- A batch writes what flushing after it writes. -/
lemma commitBatch_disk (g : Graph) (disk : Disk) (files : List String) (nodes : List Node)
    (edges : List Edge) : (g.commitBatch disk files nodes edges).2.2
      = ((g.refilled files nodes edges).flush disk).2 := by
  unfold commitBatch
  dsimp only
  split
  · next hflush => exact (congrArg Prod.snd hflush).symm
  · next hflush => exact (congrArg Prod.snd hflush).symm

end Graph

/-! ### Requests -/

/-- What becomes of the graph and of the disk is named. -/
structure Change.Named (change : Change) : Prop where
  graph : change.graph.Named
  disk : change.disk.Named

section Changes

variable {g : Graph} {disk : Disk}

lemma Change.Named.ofExcept (hg : g.Named) (hdisk : disk.Named)
    {outcome : Except Failure Graph} (hok : ∀ g', outcome = .ok g' → g'.Named) :
    (Change.ofExcept g disk outcome).Named := by
  cases outcome with
  | ok g' => exact ⟨hok g' rfl, hdisk⟩
  | error => exact ⟨hg, hdisk⟩

/-- A version in the metadata does not concern the name. -/
lemma Graph.Named.updateVersion (h : g.Named) (hdisk : disk.Named) (id version : String) :
    (g.updateVersion disk id version).Named := by
  unfold Graph.updateVersion
  split
  · next node hnode =>
    have hnamed : (withVersion node version).Named := h.contents _ node hnode
    exact ⟨h.addNode hnamed, hdisk⟩
  · exact ⟨h, hdisk⟩

lemma Graph.Named.flushed (hg : g.Named) (hdisk : disk.Named) (hlegible : g.Legible) :
    (g.flushed disk).Named := by
  have hflush := hg.flush_disk hlegible hdisk
  unfold Graph.flushed
  split
  · next heq => exact ⟨hg.flush (congrArg Prod.fst heq), by rwa [heq] at hflush⟩
  · next heq => exact ⟨hg, by rwa [heq] at hflush⟩

lemma Graph.Named.compacted (hg : g.Named) (hdisk : disk.Named) (hlegible : g.Legible) :
    (g.compacted disk).Named := by
  have hrebuilt : g.rebuild.Named := hg.congr rfl rfl
  have hflush := hrebuilt.flush_disk hlegible hdisk
  unfold Graph.compacted Graph.compact
  cases heq : g.rebuild.flush disk with
  | mk result disk' =>
    rw [heq] at hflush
    cases result with
    | ok g' => exact ⟨hrebuilt.flush (congrArg Prod.fst heq), hflush⟩
    | error => exact ⟨hrebuilt, hflush⟩

/-- A batch flushes the graph that it leaves behind. -/
lemma Graph.Named.commit (hg : g.Named) (hdisk : disk.Named) (files : List String)
    (nodes : List Wire.Node) (edges : List Wire.Edge)
    (hlegible : (g.commit disk files nodes edges).graph.Legible) :
    (g.commit disk files nodes edges).Named := by
  have hnodes : ∀ node ∈ nodes.map Node.ofWire, node.Named :=
    List.forall_mem_map.2 fun node _ => Node.named_ofWire node
  have hfilled := hg.refilled files hnodes (edges.map .ofWire)
  have hdisk' := g.commitBatch_disk disk files (nodes.map .ofWire) (edges.map .ofWire)
  unfold Graph.commit at hlegible ⊢
  split at hlegible
  · next delta g' disk' hbatch =>
    rw [hbatch] at hdisk'
    obtain rfl := commitBatch_eq_ok hbatch
    have hflush := hfilled.flush_disk hlegible hdisk
    rw [← hdisk'] at hflush
    exact ⟨hfilled.congr rfl rfl, hflush⟩
  · next failure g' disk' hbatch =>
    rw [hbatch] at hdisk'
    obtain ⟨-, rfl⟩ := commitBatch_eq_error hbatch
    have hflush := hfilled.flush_disk hlegible hdisk
    rw [← hdisk'] at hflush
    exact ⟨hfilled, hflush⟩

/-- What a request makes of the open graph and of the disk is named, when the image of the
graph is decoded as it was encoded, before and after. -/
theorem Request.named_change {now : Nat} {request : Request} {change : Graph → Disk → Change}
    (h : request.change? now = some change) (hg : g.Named) (hdisk : disk.Named)
    (hbefore : g.Legible) (hafter : (change g disk).graph.Legible) :
    (change g disk).Named := by
  cases request with
  | addNodes nodes =>
    obtain rfl := Option.some.inj h
    exact ⟨hg.addNodes (List.forall_mem_map.2 fun node _ => Node.named_ofWire node), hdisk⟩
  | deleteNode id =>
    obtain rfl := Option.some.inj h
    exact ⟨hg.deleteNode (.parse id), hdisk⟩
  | addEdges edges skipValidation =>
    obtain rfl := Option.some.inj h
    exact ⟨hg.addEdges _ true, hdisk⟩
  | deleteEdge src dst type =>
    obtain rfl := Option.some.inj h
    exact ⟨hg.deleteEdge _, hdisk⟩
  | updateNodeVersion id version =>
    obtain rfl := Option.some.inj h
    exact hg.updateVersion hdisk id version
  | declareFields fields =>
    obtain rfl := Option.some.inj h
    exact ⟨hg.congr rfl rfl, hdisk⟩
  | commitBatch files nodes edges =>
    obtain rfl := Option.some.inj h
    exact hg.commit hdisk files nodes edges hafter
  | rebuildIndexes =>
    obtain rfl := Option.some.inj h
    exact ⟨hg.congr rfl rfl, hdisk⟩
  | createSnapshot tags =>
    obtain rfl := Option.some.inj h
    exact ⟨hg.createSnapshot tags now, hdisk⟩
  | restoreSnapshot version =>
    obtain rfl := Option.some.inj h
    exact .ofExcept hg hdisk fun _ => hg.restoreSnapshot
  | deleteSnapshot version =>
    obtain rfl := Option.some.inj h
    exact .ofExcept hg hdisk fun _ => hg.deleteSnapshot
  | tagSnapshot version tags =>
    obtain rfl := Option.some.inj h
    exact .ofExcept hg hdisk fun _ => hg.tagSnapshot
  | flush =>
    obtain rfl := Option.some.inj h
    exact hg.flushed hdisk hbefore
  | compact =>
    obtain rfl := Option.some.inj h
    exact hg.compacted hdisk hbefore
  | clear =>
    obtain rfl := Option.some.inj h
    exact ⟨(hg.setContents .empty).congr rfl rfl, hdisk⟩
  | _ => simp [Request.change?] at h

end Changes

end CodeGraph
