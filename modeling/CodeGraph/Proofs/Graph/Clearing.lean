import Mathlib
import CodeGraph.Proofs.Listing
import CodeGraph.Proofs.Graph.Run

/-!
# Taking files out

A batch takes the nodes of its files out one by one and counts as it goes, by the index that
shrinks under its hands: a node that has gone with one file is not found under the next, and an
edge between two such nodes is found at the first of them only.  `Clearing.Tells` is what holds
all the way: what has gone is what lay at the identifiers met so far (`Contents.within`), the
rest is left (`Contents.without`), and everything that has gone was counted once.
-/

namespace CodeGraph

open Std (ExtTreeMap ExtTreeSet LawfulEqCmp)

/-! ### Parts of contents -/

namespace Contents

/-- Contents without some nodes and without the edges at them. -/
def without (contents : Contents) (gone : NodeId → Bool) : Contents where
  nodes := contents.nodes.filter fun id _ => !gone id
  edges := contents.edges.filter fun key _ => !(gone key.src || gone key.dst)

/-- Whether there is a node with an identifier, and it is in one of some files. -/
def isIn (contents : Contents) (files : List String) (id : NodeId) : Bool :=
  contents.nodes[id]?.any fun node => node.file.any files.contains

/-- The nodes under some identifiers, with the edges at them. -/
def within (contents : Contents) (gone : NodeId → Bool) : Contents where
  nodes := contents.nodes.filter fun id _ => gone id
  edges := contents.edges.filter fun key _ => gone key.src || gone key.dst

variable {contents : Contents} {gone : NodeId → Bool}

/-- Contents are what they say about every identifier and every key. -/
lemma ext_getElem? {other : Contents}
    (hnodes : ∀ id : NodeId, contents.nodes[id]? = other.nodes[id]?)
    (hedges : ∀ key : EdgeKey, contents.edges[key]? = other.edges[key]?) : contents = other := by
  have hallNodes : contents.nodes = other.nodes := ExtTreeMap.ext_getElem? hnodes
  have hallEdges : contents.edges = other.edges := ExtTreeMap.ext_getElem? hedges
  cases contents
  cases other
  subst hallNodes hallEdges
  rfl

@[simp]
lemma getElem?_without_nodes (gone : NodeId → Bool) (id : NodeId) :
    (contents.without gone).nodes[id]? = if gone id then none else contents.nodes[id]? := by
  unfold without
  rw [ExtTreeMap.getElem?_filter']
  cases gone id <;> cases contents.nodes[id]? <;> rfl

@[simp]
lemma getElem?_without_edges (gone : NodeId → Bool) (key : EdgeKey) :
    (contents.without gone).edges[key]?
      = if gone key.src || gone key.dst then none else contents.edges[key]? := by
  unfold without
  rw [ExtTreeMap.getElem?_filter']
  cases gone key.src || gone key.dst <;> cases contents.edges[key]? <;> rfl

@[simp]
lemma isIn_nil (contents : Contents) (id : NodeId) : contents.isIn [] id = false := by
  unfold isIn
  cases contents.nodes[id]? with
  | none => rfl
  | some node => cases hfile : node.file <;> simp [hfile]

lemma without_isIn_nil (contents : Contents) :
    contents.without (contents.isIn []) = contents := by
  refine ext_getElem? (fun id => ?_) (fun key => ?_)
  · simp
  · simp

/-- Taking nodes out in two goes. -/
lemma without_without (gone gone' : NodeId → Bool) : (contents.without gone).without gone'
    = contents.without fun id => gone id || gone' id := by
  refine ext_getElem? (fun id => ?_) (fun key => ?_)
  · simp only [getElem?_without_nodes]
    cases gone id <;> cases gone' id <;> rfl
  · simp only [getElem?_without_edges]
    cases gone key.src <;> cases gone key.dst <;> cases gone' key.src <;> cases gone' key.dst <;>
      rfl

@[simp]
lemma getElem?_within_nodes (gone : NodeId → Bool) (id : NodeId) :
    (contents.within gone).nodes[id]? = if gone id then contents.nodes[id]? else none := by
  unfold within
  rw [ExtTreeMap.getElem?_filter']
  cases gone id <;> cases contents.nodes[id]? <;> rfl

lemma mem_within_edges {key : EdgeKey} : key ∈ (contents.within gone).edges ↔
    key ∈ contents.edges ∧ (gone key.src || gone key.dst) = true := by
  unfold within
  rw [← ExtTreeMap.isSome_getElem?_iff_mem, ExtTreeMap.getElem?_filter',
    ← ExtTreeMap.isSome_getElem?_iff_mem]
  cases contents.edges[key]? <;> simp [Option.filter]

/-- With one more node there is this node more. -/
lemma within_nodes_or {id : NodeId} {node : Node} (hnode : contents.nodes[id]? = some node) :
    (contents.within fun other => gone other || other == id).nodes
      = (contents.within gone).nodes.insert id node := by
  refine ExtTreeMap.ext_getElem? fun other => ?_
  rw [ExtTreeMap.getElem?_insert, getElem?_within_nodes, getElem?_within_nodes]
  by_cases hother : id = other
  · subst hother
    simp [hnode]
  · simp [hother, Ne.symm hother]

/-- With one more node there are the edges at it more that were still left. -/
lemma mem_within_edges_or {id : NodeId} {key : EdgeKey} :
    key ∈ (contents.within fun other => gone other || other == id).edges ↔
      (key ∈ (contents.without gone).edges ∧ (key.src = id ∨ key.dst = id)) ∨
        key ∈ (contents.within gone).edges := by
  have hleft : key ∈ (contents.without gone).edges ↔
      key ∈ contents.edges ∧ (gone key.src || gone key.dst) = false := by
    rw [← ExtTreeMap.isSome_getElem?_iff_mem, getElem?_without_edges,
      ← ExtTreeMap.isSome_getElem?_iff_mem]
    cases gone key.src || gone key.dst <;> simp
  have hwider : ((gone key.src || key.src == id) || (gone key.dst || key.dst == id))
      = ((gone key.src || gone key.dst) || (key.src == id || key.dst == id)) := by
    ac_rfl
  rw [mem_within_edges, mem_within_edges, hleft, hwider]
  cases gone key.src || gone key.dst <;> simp

end Contents

namespace Graph

/-! ### Taking nodes out -/

lemma foldl_dropEdge_contents (g : Graph) (keys : List EdgeKey) :
    (keys.foldl dropEdge g).nodes = g.nodes ∧
      ∀ key : EdgeKey, (keys.foldl dropEdge g).edges[key]?
        = if key ∈ keys then none else g.edges[key]? := by
  induction keys generalizing g with
  | nil => exact ⟨rfl, fun key => by simp⟩
  | cons first keys ih =>
    obtain ⟨hnodes, hedges⟩ := ih (g.dropEdge first)
    refine ⟨hnodes, fun key => ?_⟩
    rw [List.foldl_cons, hedges]
    unfold dropEdge
    rw [ExtTreeMap.getElem?_erase]
    by_cases hkey : key ∈ keys
    · simp [hkey]
    · simp [hkey, eq_comm (a := first)]

/-- The keys that the index lists for a node are those of the stored edges at it. -/
lemma Consistent.mem_incident {g : Graph} (h : g.Consistent) (id : NodeId) (key : EdgeKey) :
    key ∈ g.index.incident id ↔ key ∈ g.edges ∧ (key.src = id ∨ key.dst = id) := by
  unfold Index.incident
  rw [ExtTreeSet.mem_toList, ExtTreeSet.mem_union_iff, h.described.outgoing,
    h.described.incoming]
  tauto

/-- Deleting a node takes it out with the edges at it; an identifier under which nothing is
stored takes nothing out. -/
lemma Consistent.deleteNode_contents {g : Graph} (h : g.Consistent) (id : NodeId) :
    (g.deleteNode id).toContents
      = g.toContents.without fun other => other == id && g.nodes.contains id := by
  cases hnode : g.nodes[id]? with
  | none =>
    have hmissing : g.nodes.contains id = false := by
      rw [ExtTreeMap.contains_eq_isSome_getElem?, hnode]
      rfl
    have hsame : g.deleteNode id = g := by
      unfold Graph.deleteNode
      rw [hnode]
    rw [hsame]
    refine Contents.ext_getElem? (fun other => ?_) (fun key => ?_)
    · simp [hmissing]
    · simp [hmissing]
  | some node =>
    have hthere : g.nodes.contains id = true := by
      rw [ExtTreeMap.contains_eq_isSome_getElem?, hnode]
      rfl
    unfold Graph.deleteNode
    rw [hnode]
    simp only
    obtain ⟨hnodes, hedges⟩ := foldl_dropEdge_contents { g with
      nodes := g.nodes.erase id
      index := g.index.removeNode g.fields node
      unflushed := g.unflushed + 1 } ((g.index.removeNode g.fields node).incident id)
    refine Contents.ext_getElem? (fun other => ?_) (fun key => ?_)
    · rw [hnodes, Contents.getElem?_without_nodes, ExtTreeMap.getElem?_erase, hthere]
      simp [eq_comm (a := id)]
    · have hincident : key ∈ (g.index.removeNode g.fields node).incident id ↔
          key ∈ g.edges ∧ (key.src = id ∨ key.dst = id) := h.mem_incident id key
      rw [hedges, Contents.getElem?_without_edges, hthere]
      by_cases hends : key.src = id ∨ key.dst = id
      · by_cases hkey : key ∈ g.edges
        · simp [hincident.2 ⟨hkey, hends⟩, hends]
        · simp [ExtTreeMap.getElem?_eq_none hkey]
      · have hnot : key ∉ (g.index.removeNode g.fields node).incident id :=
          fun hin => hends (hincident.1 hin).2
        simp [hnot, hends]

/-- When the nodes of some files have been taken out, the index lists for a file its nodes that
are left. -/
lemma Consistent.mem_toList_byFile {contents : Contents} {files : List String} {g : Graph}
    (h : g.Consistent) (hc : g.toContents = contents.without (contents.isIn files))
    (file : String) (id : NodeId) : id ∈ (g.index.byFile.values file).toList ↔
      contents.isIn files id = false ∧
        ∃ node, contents.nodes[id]? = some node ∧ node.file = some file := by
  rw [ExtTreeSet.mem_toList, h.described.byFile, hc, Contents.getElem?_without_nodes]
  cases contents.isIn files id <;> simp

/-- The nodes of some files and those that are left of one more are the nodes of all of them. -/
lemma Consistent.isIn_append {contents : Contents} {files : List String} {g : Graph}
    (h : g.Consistent) (hc : g.toContents = contents.without (contents.isIn files))
    (file : String) :
    (fun id => contents.isIn files id || (g.index.byFile.values file).toList.contains id)
      = contents.isIn (files ++ [file]) := by
  funext id
  rw [Bool.eq_iff_iff, Bool.or_eq_true, List.contains_iff_mem, h.mem_toList_byFile hc]
  cases hnode : contents.nodes[id]? with
  | none => simp [Contents.isIn, hnode]
  | some node =>
    have hin : ∀ files : List String, contents.isIn files id = true ↔
        ∃ file ∈ files, node.file = some file := by
      intro files
      unfold Contents.isIn
      rw [hnode, Option.any_some]
      cases node.file <;> simp
    rw [hin, hin, ← Bool.not_eq_true, hin]
    simp only [List.mem_append, List.mem_singleton, Option.some.injEq, exists_eq_left']
    constructor
    · rintro (⟨old, hold, hfile⟩ | ⟨-, hfile⟩)
      · exact ⟨old, .inl hold, hfile⟩
      · exact ⟨file, .inr rfl, hfile⟩
    · rintro ⟨old, hold | rfl, hfile⟩
      · exact .inl ⟨old, hold, hfile⟩
      · by_cases hbefore : ∃ other ∈ files, node.file = some other
        · exact .inl hbefore
        · exact .inr ⟨hbefore, hfile⟩

/-! ### Sets of types -/

lemma mem_insertType {types : ExtTreeSet String} {given : Option String} {type : String} :
    type ∈ insertType types given ↔ given = some type ∨ type ∈ types := by
  cases given with
  | none => simp [insertType]
  | some other => simp [insertType]

lemma mem_foldl_insertType (given : List (Option String)) (types : ExtTreeSet String)
    (type : String) : type ∈ given.foldl insertType types ↔ some type ∈ given ∨ type ∈ types := by
  induction given generalizing types with
  | nil => simp
  | cons first given ih =>
    rw [List.foldl_cons, ih, mem_insertType, List.mem_cons]
    tauto

/-- The types of keys count unless they are empty. -/
lemma mem_foldl_keyTypes (keys : List EdgeKey) (types : ExtTreeSet String) (type : String) :
    type ∈ keys.foldl (fun types key =>
        if key.type.isEmpty then types else types.insert key.type) types ↔
      (type ≠ "" ∧ ∃ key ∈ keys, key.type = type) ∨ type ∈ types := by
  induction keys generalizing types with
  | nil => simp
  | cons key keys ih =>
    have hfirst : type ∈ (if key.type.isEmpty then types else types.insert key.type) ↔
        (type ≠ "" ∧ key.type = type) ∨ type ∈ types := by
      split
      · next hempty =>
        rw [String.isEmpty_iff] at hempty
        simp [hempty, eq_comm (a := "")]
      · next hempty =>
        rw [String.isEmpty_iff] at hempty
        have hnonempty : key.type = type → type ≠ "" := by
          rintro rfl
          exact hempty
        rw [ExtTreeSet.mem_insert, LawfulEqCmp.compare_eq_iff_eq,
          and_iff_right_of_imp hnonempty]
    rw [List.foldl_cons, ih, hfirst, List.exists_mem_cons_iff, and_or_left, or_assoc,
      or_left_comm]

/-! ### Counting while nodes go -/

/-- What has been taken out of contents are the nodes under some identifiers and the edges at
them, and it has been counted. -/
structure Clearing.Tells (c : Clearing) (contents : Contents) (gone : NodeId → Bool) : Prop where
  consistent : c.graph.Consistent
  left : c.graph.toContents = contents.without gone
  nodesRemoved : c.nodesRemoved = (contents.within gone).nodes.size
  mem_removedEdges : ∀ key : EdgeKey,
    key ∈ c.removedEdges ↔ key ∈ (contents.within gone).edges
  mem_nodeTypes : ∀ type : String, type ∈ c.nodeTypes ↔
    ∃ (id : NodeId) (node : Node),
      (contents.within gone).nodes[id]? = some node ∧ node.type = some type
  mem_edgeTypes : ∀ type : String, type ∈ c.edgeTypes ↔
    type ≠ "" ∧ ∃ key ∈ (contents.within gone).edges, key.type = type

namespace Clearing.Tells

variable {contents : Contents} {gone : NodeId → Bool} {c : Clearing}

/-- Before the first file nothing has gone. -/
lemma start {g : Graph} (h : g.Consistent) :
    Clearing.Tells ⟨g, 0, ∅, ∅, ∅⟩ g.toContents (g.toContents.isIn []) where
  consistent := h
  left := g.toContents.without_isIn_nil.symm
  nodesRemoved := by
    have hnone : (g.toContents.within (g.toContents.isIn [])).nodes = ∅ :=
      ExtTreeMap.ext_getElem? fun id => by simp
    rw [hnone]
    exact ExtTreeMap.size_empty.symm
  mem_removedEdges key := by simp [Contents.mem_within_edges]
  mem_nodeTypes type := by simp
  mem_edgeTypes type := by simp [Contents.mem_within_edges]

/-- One more stored node goes, which had not gone before. -/
lemma removeNode (h : c.Tells contents gone) {id : NodeId} (hid : id ∈ contents.nodes)
    (hleft : gone id = false) :
    (c.removeNode id).Tells contents fun other => gone other || other == id := by
  obtain ⟨node, hnode⟩ : ∃ node, contents.nodes[id]? = some node :=
    ⟨_, ExtTreeMap.getElem?_eq_some_getElem hid⟩
  have hstored : c.graph.nodes[id]? = some node := by
    rw [h.left, Contents.getElem?_without_nodes, hleft, hnode]
    rfl
  obtain rfl : node.id = id := h.consistent.keyed.node hstored
  have hfresh : (contents.within gone).nodes[node.id]? = none := by
    rw [Contents.getElem?_within_nodes, hleft]
    rfl
  have hedges : ∀ key : EdgeKey,
      key ∈ (contents.within fun other => gone other || other == node.id).edges ↔
        key ∈ c.graph.index.incident node.id ∨ key ∈ (contents.within gone).edges := by
    intro key
    rw [Contents.mem_within_edges_or, h.consistent.mem_incident, ← h.left]
  -- The node is counted once, for it was not among those that had gone; of the edges at it the
  -- index lists those only that are left, and the set of removed edges takes each once.
  refine ⟨h.consistent.deleteNode node.id, ?_, ?_, fun key => ?_, fun type => ?_, fun type => ?_⟩
  · have hthere : c.graph.nodes.contains node.id = true := by
      rw [ExtTreeMap.contains_eq_isSome_getElem?, hstored]
      rfl
    change (c.graph.deleteNode node.id).toContents = _
    rw [h.consistent.deleteNode_contents, hthere, h.left, Contents.without_without]
    simp only [Bool.and_true]
  · have hnew : (contents.within gone).nodes.contains node.id = false := by
      rw [ExtTreeMap.contains_eq_isSome_getElem?, hfresh]
      rfl
    rw [Contents.within_nodes_or hnode, ExtTreeMap.size_insert, hnew, ← h.nodesRemoved]
    rfl
  · unfold Clearing.removeNode
    rw [mem_foldl_insert, h.mem_removedEdges, hedges]
  · unfold Clearing.removeNode
    rw [mem_insertType, h.mem_nodeTypes, hstored, Contents.within_nodes_or hnode]
    simp only [Index.exists_insert_iff hfresh fun n => n.type = some type, exists_or,
      exists_and_left, exists_eq, and_true, Option.bind_some]
  · unfold Clearing.removeNode
    rw [mem_foldl_keyTypes, h.mem_edgeTypes]
    simp only [hedges, or_and_right, exists_or, and_or_left]

/-- Different stored nodes go one after the other. -/
lemma removeNodes {ids : List NodeId} (hdistinct : ids.Nodup)
    (hids : ∀ id ∈ ids, id ∈ contents.nodes ∧ gone id = false) (h : c.Tells contents gone) :
    (ids.foldl Clearing.removeNode c).Tells contents fun id => gone id || ids.contains id := by
  induction ids generalizing c gone with
  | nil => simpa using h
  | cons id ids ih =>
    obtain ⟨hnew, hrest⟩ := List.nodup_cons.1 hdistinct
    obtain ⟨hid, hleft⟩ := hids id List.mem_cons_self
    have hall : (ids.foldl Clearing.removeNode (c.removeNode id)).Tells contents
        fun other => (gone other || other == id) || ids.contains other := by
      refine ih hrest (fun other hother => ?_) (h.removeNode hid hleft)
      obtain ⟨hthere, hstill⟩ := hids other (List.mem_cons_of_mem id hother)
      have hne : other ≠ id := fun heq => hnew (heq ▸ hother)
      exact ⟨hthere, by simp [hstill, hne]⟩
    simp only [Bool.or_assoc, ← List.contains_cons] at hall
    exact hall

/-- The nodes that are left of one more file go. -/
lemma removeFile {files : List String} (h : c.Tells contents (contents.isIn files))
    (file : String) : (c.removeFile file).Tells contents (contents.isIn (files ++ [file])) := by
  have hdistinct : (c.graph.index.byFile.values file).toList.Nodup :=
    (increasing_toList _).imp fun hlt heq => by simp [heq] at hlt
  rw [← h.consistent.isIn_append h.left]
  refine h.removeNodes hdistinct fun id hid => ?_
  obtain ⟨hout, node, hnode, -⟩ := (h.consistent.mem_toList_byFile h.left file id).1 hid
  exact ⟨(ExtTreeMap.getElem?_eq_some_iff.1 hnode).1, hout⟩

/-- The nodes of files go, one file after the other. -/
lemma removeFiles {before : List String} (h : c.Tells contents (contents.isIn before))
    (files : List String) :
    (files.foldl Clearing.removeFile c).Tells contents (contents.isIn (before ++ files)) := by
  induction files generalizing c before with
  | nil => simpa using h
  | cons file files ih =>
    have hrest := ih (h.removeFile file)
    rw [List.append_assoc] at hrest
    exact hrest

end Clearing.Tells

end Graph

end CodeGraph
