import Mathlib
import CodeGraph.Graph.Query
import CodeGraph.Proofs.Graph.Run
import CodeGraph.Proofs.Listing
import CodeGraph.Proofs.Traversal

/-!
# Questions answered by scanning

In a consistent graph every question that goes through an index has the answer that a scan
of all stored nodes or edges would give: the records with a property, in order
(`nodesWhere`, `edgesWhere`), or how often each type occurs among them (`tally`).
-/

namespace CodeGraph.Graph

open Std (ExtTreeMap ExtTreeSet)

/-- The stored nodes with a property, by identifier. -/
def nodesWhere (g : Graph) (p : Node → Bool) : List Node :=
  (g.nodes.toList.map Prod.snd).filter p

/-- The types of the stored nodes, one for each node that has a type. -/
def nodeTypes (g : Graph) : List String :=
  (g.nodesWhere fun _ => true).filterMap Node.type

/-- The stored edges with a property, by key. -/
def edgesWhere (g : Graph) (p : Edge → Bool) : List Edge :=
  g.allEdges.filter p

/-- The types of the stored edges, one for each edge. -/
def edgeTypes (g : Graph) : List String :=
  (g.edgesWhere fun _ => true).map (·.key.type)

/-- Whether a type fits one of the patterns, or there are no patterns to fit. -/
def fitsOneOf (patterns : Option (List String)) (type : String) : Bool :=
  match patterns with
  | some patterns => patterns.any (typeMatches · type)
  | none => true

namespace Consistent

variable {g : Graph}

/-! ### The stored records -/

lemma mem_nodesWhere (h : g.Consistent) {p : Node → Bool} {node : Node} :
    node ∈ g.nodesWhere p ↔ g.nodes[node.id]? = some node ∧ p node := by
  simp only [nodesWhere, List.mem_filter, List.mem_map, Prod.exists, exists_eq_right,
    ExtTreeMap.mem_toList_iff_getElem?_eq_some]
  constructor
  · rintro ⟨⟨id, hid⟩, hp⟩
    obtain rfl : node.id = id := h.keyed.node hid
    exact ⟨hid, hp⟩
  · rintro ⟨hid, hp⟩
    exact ⟨⟨node.id, hid⟩, hp⟩

lemma increasing_nodesWhere (h : g.Consistent) (p : Node → Bool) :
    IncreasingBy Node.id (g.nodesWhere p) := by
  refine IncreasingBy.filter ?_ p
  rw [increasingBy_iff_map, List.map_map]
  have hids : g.nodes.toList.map (Node.id ∘ Prod.snd) = g.nodes.toList.map Prod.fst :=
    List.map_congr_left fun entry hentry =>
      h.keyed.node (ExtTreeMap.mem_toList_iff_getElem?_eq_some.1 hentry)
  rw [hids, ← increasingBy_iff_map]
  exact increasing_entries g.nodes

lemma mem_edgesWhere (h : g.Consistent) {p : Edge → Bool} {edge : Edge} :
    edge ∈ g.edgesWhere p ↔ g.edges[edge.key]? = some edge ∧ p edge := by
  simp only [edgesWhere, allEdges, List.mem_filter, List.mem_map, Prod.exists,
    exists_eq_right, ExtTreeMap.mem_toList_iff_getElem?_eq_some]
  constructor
  · rintro ⟨⟨key, hkey⟩, hp⟩
    obtain rfl : edge.key = key := h.keyed.edge hkey
    exact ⟨hkey, hp⟩
  · rintro ⟨hkey, hp⟩
    exact ⟨⟨edge.key, hkey⟩, hp⟩

lemma increasing_edgesWhere (h : g.Consistent) (p : Edge → Bool) :
    IncreasingBy Edge.key (g.edgesWhere p) := by
  refine IncreasingBy.filter ?_ p
  rw [increasingBy_iff_map, allEdges, List.map_map]
  have hkeys : g.edges.toList.map (Edge.key ∘ Prod.snd) = g.edges.toList.map Prod.fst :=
    List.map_congr_left fun entry hentry =>
      h.keyed.edge (ExtTreeMap.mem_toList_iff_getElem?_eq_some.1 hentry)
  rw [hkeys, ← increasingBy_iff_map]
  exact increasing_entries g.edges

lemma increasing_ids (h : g.Consistent) (p : Node → Bool) :
    IncreasingBy id ((g.nodesWhere p).map Node.id) :=
  increasingBy_iff_map.1 (h.increasing_nodesWhere p)

lemma mem_ids (h : g.Consistent) {p : Node → Bool} {id : NodeId} :
    id ∈ (g.nodesWhere p).map Node.id ↔ ∃ node, g.nodes[id]? = some node ∧ p node := by
  simp only [List.mem_map, h.mem_nodesWhere]
  constructor
  · rintro ⟨node, ⟨hnode, hp⟩, rfl⟩
    exact ⟨node, hnode, hp⟩
  · rintro ⟨node, hnode, hp⟩
    obtain rfl : node.id = id := h.keyed.node hnode
    exact ⟨node, ⟨hnode, hp⟩, rfl⟩

/-! ### Nodes by type -/

/-- The types that are indexed are those of the stored nodes. -/
lemma mem_byType_iff (h : g.Consistent) (type : String) :
    type ∈ g.index.byType ↔ ∃ node ∈ g.nodesWhere fun _ => true, node.type = some type := by
  simp only [h.described.tidyTypes.mem_iff, h.described.byType, h.mem_nodesWhere, and_true]
  constructor
  · rintro ⟨id, node, hnode, htype⟩
    obtain rfl : node.id = id := h.keyed.node hnode
    exact ⟨node, hnode, htype⟩
  · rintro ⟨node, hnode, htype⟩
    exact ⟨node.id, node, hnode, htype⟩

/-- The nodes of a type, as the index lists them. -/
lemma toList_byType (h : g.Consistent) (type : String) :
    (g.index.byType.values type).toList
      = (g.nodesWhere fun node => node.type == some type).map Node.id := by
  refine eq_of_increasing_of_mem_iff (increasing_toList _) (h.increasing_ids _) fun id => ?_
  rw [ExtTreeSet.mem_toList, h.described.byType, h.mem_ids]
  simp

/-- The union of the sets that a map has under some of its keys. -/
lemma mem_foldl_union {κ ι : Type} [Ord κ] [Std.TransOrd κ] [Std.LawfulEqOrd κ] [Ord ι]
    [Std.TransOrd ι] (m : Multimap κ ι) (p : κ → Bool) (value : ι) :
    value ∈ m.foldl (fun found key values => if p key then found ∪ values else found) ∅ ↔
      ∃ key, p key ∧ value ∈ m.values key := by
  have hfold : ∀ (entries : List (κ × ExtTreeSet ι)) (found : ExtTreeSet ι),
      value ∈ entries.foldl
        (fun found entry => if p entry.1 then found ∪ entry.2 else found) found ↔
      value ∈ found ∨ ∃ entry ∈ entries, p entry.1 ∧ value ∈ entry.2 := by
    intro entries
    induction entries with
    | nil => simp
    | cons entry entries ih =>
      intro found
      rw [List.foldl_cons, ih]
      by_cases hp : p entry.1 <;> simp [hp, or_assoc]
  rw [ExtTreeMap.foldl_eq_foldl_toList, hfold]
  simp only [ExtTreeSet.not_mem_empty, false_or, Prod.exists,
    ExtTreeMap.mem_toList_iff_getElem?_eq_some, Multimap.values]
  constructor
  · rintro ⟨key, values, hvalues, hp, hvalue⟩
    exact ⟨key, hp, by simpa [hvalues] using hvalue⟩
  · rintro ⟨key, hp, hvalue⟩
    cases hvalues : m[key]? with
    | none => simp [hvalues] at hvalue
    | some values => exact ⟨key, values, hvalues, hp, by simpa [hvalues] using hvalue⟩

/-- The nodes whose type fits a pattern, as a set. -/
lemma mem_findByType (h : g.Consistent) (pattern : String) (id : NodeId) :
    id ∈ g.findByType pattern ↔
      ∃ node, g.nodes[id]? = some node ∧ node.type.any (typeMatches pattern) := by
  have hmatch : id ∈ g.findByType pattern ↔
      ∃ type, typeMatches pattern type ∧ id ∈ g.index.byType.values type := by
    unfold findByType
    split
    · exact mem_foldl_union g.index.byType (typeMatches pattern) id
    · next hstar => simp [typeMatches, hstar]
  simp only [hmatch, h.described.byType, Option.any_eq_true]
  constructor
  · rintro ⟨type, hfits, node, hnode, htype⟩
    exact ⟨node, hnode, type, htype, hfits⟩
  · rintro ⟨node, hnode, type, htype, hfits⟩
    exact ⟨type, hfits, node, hnode, htype⟩

/-- The nodes whose type fits a pattern are found by a scan. -/
lemma toList_findByType (h : g.Consistent) (pattern : String) :
    (g.findByType pattern).toList
      = (g.nodesWhere fun node => node.type.any (typeMatches pattern)).map Node.id := by
  refine eq_of_increasing_of_mem_iff (increasing_toList _) (h.increasing_ids _) fun id => ?_
  rw [ExtTreeSet.mem_toList, h.mem_findByType, h.mem_ids]

lemma mem_nodeTypes (h : g.Consistent) (type : String) :
    type ∈ g.nodeTypes ↔ type ∈ g.index.byType := by
  simp [nodeTypes, h.mem_byType_iff]

lemma count_nodeTypes (h : g.Consistent) (type : String) :
    g.nodeTypes.count type = (g.index.byType.values type).size := by
  have hall : (g.nodesWhere fun node => node.type == some type)
      = (g.nodesWhere fun _ => true).filter fun node => node.type == some type := by
    simp [nodesWhere]
  rw [← ExtTreeSet.length_toList, h.toList_byType, List.length_map, hall, nodeTypes,
    List.count, List.countP_filterMap, List.countP_eq_length_filter]
  congr 2
  funext node
  cases node.type <;> simp

/-- The nodes of each type are counted by a scan. -/
lemma countNodes_eq_tally (h : g.Consistent) (patterns : Option (List String)) :
    g.countNodes patterns = tally (g.nodeTypes.filter (fitsOneOf patterns)) := by
  refine eq_of_increasing_of_mem_iff ?_ (increasing_tally _) ?_
  · rw [increasingBy_iff_map, countNodes, List.map_map]
    exact increasingBy_iff_map.1 (IncreasingBy.filter (increasing_entries g.index.byType) _)
  · rintro ⟨type, n⟩
    rw [mem_tally, List.mem_filter, h.mem_nodeTypes]
    simp only [countNodes, List.mem_map, List.mem_filter, Prod.exists, Prod.mk.injEq,
      ExtTreeMap.mem_toList_iff_getElem?_eq_some]
    constructor
    · rintro ⟨type, ids, ⟨hids, hfits⟩, rfl, rfl⟩
      refine ⟨⟨(ExtTreeMap.getElem?_eq_some_iff.1 hids).1, hfits⟩, ?_⟩
      rw [List.count_filter (p := fitsOneOf patterns) hfits, h.count_nodeTypes,
        Multimap.values, hids]
      rfl
    · rintro ⟨⟨htype, hfits⟩, rfl⟩
      have hids := ExtTreeMap.getElem?_eq_some_getElem htype
      refine ⟨type, _, ⟨hids, hfits⟩, rfl, ?_⟩
      rw [List.count_filter hfits, h.count_nodeTypes, Multimap.values, hids]
      rfl

/-! ### Edges -/

/-- Looking up keys in order gives the stored edges with these keys. -/
lemma edgesUnder_eq (h : g.Consistent) {keys : ExtTreeSet EdgeKey} {p : Edge → Bool}
    (hkeys : ∀ edge, g.edges[edge.key]? = some edge → (edge.key ∈ keys ↔ p edge))
    (types : Option (List String)) :
    g.edgesUnder keys types = g.edgesWhere fun edge => p edge && wantsType types edge.key.type := by
  refine eq_of_increasing_of_mem_iff ?_ (h.increasing_edgesWhere _) fun edge => ?_
  · refine (List.pairwise_filterMap).2 ?_
    refine List.Pairwise.imp ?_ (IncreasingBy.filter (increasing_toList keys) _)
    intro key key' hlt edge hedge edge' hedge'
    rwa [h.keyed.edge hedge, h.keyed.edge hedge']
  · simp only [edgesUnder, List.mem_filterMap, List.mem_filter, ExtTreeSet.mem_toList,
      h.mem_edgesWhere, Bool.and_eq_true]
    constructor
    · rintro ⟨key, ⟨hkey, hwants⟩, hedge⟩
      obtain rfl : edge.key = key := h.keyed.edge hedge
      exact ⟨hedge, (hkeys edge hedge).1 hkey, hwants⟩
    · rintro ⟨hedge, hp, hwants⟩
      exact ⟨edge.key, ⟨(hkeys edge hedge).2 hp, hwants⟩, hedge⟩

/-- The edges that begin at a node are found by a scan. -/
lemma outgoingEdges_eq (h : g.Consistent) (id : NodeId) (types : Option (List String)) :
    g.outgoingEdges id types
      = g.edgesWhere fun edge => edge.src == id && wantsType types edge.key.type := by
  refine h.edgesUnder_eq (fun edge hedge => ?_) types
  have hkey : edge.key ∈ g.edges := (ExtTreeMap.getElem?_eq_some_iff.1 hedge).1
  have hend : edge.key.src = edge.src := rfl
  simp [h.described.outgoing, hkey, hend]

/-- The edges that end at a node are found by a scan. -/
lemma incomingEdges_eq (h : g.Consistent) (id : NodeId) (types : Option (List String)) :
    g.incomingEdges id types
      = g.edgesWhere fun edge => edge.dst == id && wantsType types edge.key.type := by
  refine h.edgesUnder_eq (fun edge hedge => ?_) types
  have hkey : edge.key ∈ g.edges := (ExtTreeMap.getElem?_eq_some_iff.1 hedge).1
  have hend : edge.key.dst = edge.dst := rfl
  simp [h.described.incoming, hkey, hend]

/-- Edges that begin at one node come in the order of their ends. -/
lemma pairwise_dst (h : g.Consistent) (id : NodeId) (p : EdgeKey → Bool) :
    (((g.index.outgoing.values id).toList.filter p).map EdgeKey.dst).Pairwise
      fun a b => compare a b ≠ .gt := by
  rw [List.pairwise_map]
  refine List.Pairwise.imp_of_mem ?_ (IncreasingBy.filter (increasing_toList _) p)
  intro key key' hkey hkey' hlt hgt
  simp only [List.mem_filter, ExtTreeSet.mem_toList, h.described.outgoing] at hkey hkey'
  have hsrc : compare key.src key'.src = .eq := by
    rw [hkey.1.2, hkey'.1.2]
    exact Std.ReflCmp.compare_self
  have hcompare : compare key key' = .gt := by
    change (compare key.src key'.src).then
      ((compare key.dst key'.dst).then (compare key.type key'.type)) = .gt
    rw [hsrc, hgt]
    rfl
  simp [hcompare] at hlt

/-- The neighbours of a node are the ends of its edges, by identifier and each once. -/
lemma neighbors_eq (h : g.Consistent) (id : NodeId) (types : List String) :
    g.neighbors id types = sorted ((g.edgesWhere fun edge =>
      edge.src == id && wantsType (some types) edge.key.type).map Edge.dst) := by
  set found := ((g.index.outgoing.values id).toList.filter fun key =>
    wantsType (some types) key.type).map EdgeKey.dst with hfound
  refine eq_of_increasing_of_mem_iff ?_ (increasing_sorted _) fun dst => ?_
  · have hordered := (h.pairwise_dst id fun key => wantsType (some types) key.type).sublist
      (Traversal.discover_sublist ∅ found)
    refine (hordered.and (Traversal.nodup_discover ∅ found)).imp ?_
    rintro a b ⟨hle, hne⟩
    cases hab : compare a b with
    | lt => exact hab
    | eq => exact absurd (Std.LawfulEqOrd.eq_of_compare hab) hne
    | gt => exact absurd hab hle
  · rw [mem_sorted, List.mem_map, neighbors, ← hfound, Traversal.mem_discover, hfound]
    simp only [List.mem_map, List.mem_filter, ExtTreeSet.mem_toList, h.described.outgoing,
      h.mem_edgesWhere, Bool.and_eq_true, beq_iff_eq, ExtTreeSet.not_mem_empty,
      not_false_eq_true, and_true]
    constructor
    · rintro ⟨key, ⟨⟨hkey, hsrc⟩, hwants⟩, rfl⟩
      obtain ⟨edge, hedge⟩ : ∃ edge, g.edges[key]? = some edge :=
        ⟨_, ExtTreeMap.getElem?_eq_some_getElem hkey⟩
      obtain rfl : edge.key = key := h.keyed.edge hedge
      exact ⟨edge, ⟨hedge, hsrc, hwants⟩, rfl⟩
    · rintro ⟨edge, ⟨hedge, hsrc, hwants⟩, rfl⟩
      exact ⟨edge.key, ⟨⟨(ExtTreeMap.getElem?_eq_some_iff.1 hedge).1, hsrc⟩, hwants⟩, rfl⟩

/-- The edges of each type are counted by a scan. -/
lemma countEdges_eq_tally (h : g.Consistent) (patterns : Option (List String)) :
    g.countEdges patterns = tally (g.edgeTypes.filter (fitsOneOf patterns)) := by
  have hkeys : g.edgeTypes = g.edges.keys.map EdgeKey.type := by
    rw [edgeTypes, edgesWhere, List.filter_true, allEdges, List.map_map,
      ← ExtTreeMap.map_fst_toList_eq_keys, List.map_map]
    refine List.map_congr_left fun entry hentry => ?_
    have hkey := h.keyed.edge (ExtTreeMap.mem_toList_iff_getElem?_eq_some.1 hentry)
    exact congrArg EdgeKey.type hkey
  rw [← toList_countUp, hkeys, countEdges, countUp, List.foldl_filter, List.foldl_map]
  cases patterns <;> rfl

end Consistent

/-! ### Reachable graphs -/

/-- In every reachable graph the records lie under their own identifiers and keys, the
index says exactly what a scan of them says, and so do the answers that are read off the
index. -/
theorem Reachable.index_exact {g : Graph} (h : Reachable g) :
    g.toContents.Keyed ∧ Index.Describes g.fields g.index g.toContents ∧
    (∀ pattern, (g.findByType pattern).toList
      = (g.nodesWhere fun node => node.type.any (typeMatches pattern)).map Node.id) ∧
    (∀ id types, g.neighbors id types = sorted ((g.edgesWhere fun edge =>
      edge.src == id && wantsType (some types) edge.key.type).map Edge.dst)) ∧
    (∀ id types, g.outgoingEdges id types
      = g.edgesWhere fun edge => edge.src == id && wantsType types edge.key.type) ∧
    (∀ id types, g.incomingEdges id types
      = g.edgesWhere fun edge => edge.dst == id && wantsType types edge.key.type) ∧
    (∀ patterns, g.countNodes patterns
      = tally (g.nodeTypes.filter (fitsOneOf patterns))) ∧
    (∀ patterns, g.countEdges patterns
      = tally (g.edgeTypes.filter (fitsOneOf patterns))) := by
  have hg : g.Consistent := h.consistent
  refine ⟨hg.keyed, hg.described, hg.toList_findByType, hg.neighbors_eq, hg.outgoingEdges_eq,
    hg.incomingEdges_eq, hg.countNodes_eq_tally, hg.countEdges_eq_tally⟩

/-- A node that has no attribute but perhaps a type. -/
def bareNode (n : Nat) (type : Option String) : Node :=
  { id := .ofNat n, type, name := none, file := none, exported := false, metadata := none,
    semanticId := none }

/-- A node is replaced by one of another type, and a node with a loop and a dangling edge is
deleted after a snapshot that is then restored. -/
def changesAndBack : List Operation :=
  [.addNodes [bareNode 1 (some "call"), bareNode 2 (some "call")],
    .addEdges [⟨.ofNat 1, .ofNat 2, some "calls", none⟩, ⟨.ofNat 2, .ofNat 2, none, none⟩,
      ⟨.ofNat 3, .ofNat 2, some "calls", none⟩] true,
    .addNodes [bareNode 1 (some "http:route")],
    .createSnapshot ∅ 0, .deleteNode (.ofNat 2), .restoreSnapshot 1]

theorem index_exact_changesAndBack : Reachable (ephemeral.performAll changesAndBack) ∧
    (ephemeral.performAll changesAndBack).neighbors (.ofNat 2) [] = [.ofNat 2] ∧
    (ephemeral.performAll changesAndBack).countNodes none
      = [("call", 1), ("http:route", 1)] := by
  have hreach := Reachable.ephemeral.performAll changesAndBack
  obtain ⟨-, -, -, hneighbors, -, -, hcount, -⟩ := hreach.index_exact
  refine ⟨hreach, ?_, ?_⟩
  · rw [hneighbors]
    decide +kernel
  · rw [hcount]
    decide +kernel

end CodeGraph.Graph
