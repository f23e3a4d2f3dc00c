import Mathlib
import CodeGraph.Graph.Index
import CodeGraph.Proofs.Listing

/-!
# What the indexes say

The contents of a graph are *keyed* when every node lies under its own identifier and
every edge under its own key.  An index *describes* contents when it lists exactly the
nodes with a type, in a file or with a value of a declared field, and exactly the edges at
an end point.

Entering and taking away one node or one edge keeps the description
(`Index.Describes.insertNode`, `eraseNode`, `insertEdge`, `eraseEdge`), so an index built
by a scan describes what was scanned (`Index.describes_scan`).
-/

namespace CodeGraph

open Std (ExtTreeMap ExtTreeSet LawfulEqCmp)

/-- Nodes and edges lie under their own identifiers and keys. -/
structure Contents.Keyed (contents : Contents) : Prop where
  node : ∀ {id : NodeId} {node : Node}, contents.nodes[id]? = some node → node.id = id
  edge : ∀ {key : EdgeKey} {edge : Edge}, contents.edges[key]? = some edge → edge.key = key

namespace Contents.Keyed

variable {contents : Contents}

lemma empty : Contents.empty.Keyed :=
  ⟨by simp [Contents.empty], by simp [Contents.empty]⟩

lemma insertNode (h : contents.Keyed) (node : Node) :
    { contents with nodes := contents.nodes.insert node.id node }.Keyed := by
  refine ⟨fun {id other} hother => ?_, h.edge⟩
  simp only [ExtTreeMap.getElem?_insert, LawfulEqCmp.compare_eq_iff_eq] at hother
  split at hother
  · next hid => exact Option.some.inj hother ▸ hid
  · exact h.node hother

lemma eraseNode (h : contents.Keyed) (id : NodeId) :
    { contents with nodes := contents.nodes.erase id }.Keyed := by
  refine ⟨fun {other node} hnode => ?_, h.edge⟩
  simp only [ExtTreeMap.getElem?_erase] at hnode
  split at hnode
  · simp at hnode
  · exact h.node hnode

lemma insertEdge (h : contents.Keyed) (edge : Edge) :
    { contents with edges := contents.edges.insert edge.key edge }.Keyed := by
  refine ⟨h.node, fun {key other} hother => ?_⟩
  simp only [ExtTreeMap.getElem?_insert, LawfulEqCmp.compare_eq_iff_eq] at hother
  split at hother
  · next hkey => exact Option.some.inj hother ▸ hkey
  · exact h.edge hother

lemma eraseEdge (h : contents.Keyed) (key : EdgeKey) :
    { contents with edges := contents.edges.erase key }.Keyed := by
  refine ⟨h.node, fun {other edge} hedge => ?_⟩
  simp only [ExtTreeMap.getElem?_erase] at hedge
  split at hedge
  · simp at hedge
  · exact h.edge hedge

end Contents.Keyed

/-! ### Multimaps without empty sets -/

namespace Multimap

variable {κ ι : Type} [Ord κ] [Std.TransOrd κ] [Ord ι] [Std.TransOrd ι]

/-- No key of a multimap has an empty set of values. -/
def Tidy (m : Multimap κ ι) : Prop :=
  ∀ (key : κ) (values : ExtTreeSet ι), m[key]? = some values → values ≠ ∅

lemma tidy_empty : Tidy (∅ : Multimap κ ι) := by
  intro key values h
  simp at h

lemma Tidy.add [Std.LawfulEqOrd κ] {m : Multimap κ ι} (h : m.Tidy) (key : κ) (value : ι) :
    (m.add key value).Tidy := by
  intro k values hk
  simp only [Multimap.add, ExtTreeMap.getElem?_insert, LawfulEqCmp.compare_eq_iff_eq] at hk
  split at hk
  · obtain rfl := Option.some.inj hk
    exact ExtTreeSet.insert_ne_empty
  · exact h k values hk

lemma Tidy.remove [Std.LawfulEqOrd κ] {m : Multimap κ ι} (h : m.Tidy) (key : κ) (value : ι) :
    (m.remove key value).Tidy := by
  intro k values hk
  simp only [Multimap.remove] at hk
  split at hk
  · rw [ExtTreeMap.getElem?_erase] at hk
    split at hk
    · simp at hk
    · exact h k values hk
  · next hne =>
    rw [ExtTreeMap.getElem?_insert] at hk
    split at hk
    · obtain rfl := Option.some.inj hk
      exact fun hempty => hne (ExtTreeSet.isEmpty_iff.2 hempty)
    · exact h k values hk

/-- Without empty sets, a key is there when it has a value. -/
lemma Tidy.mem_iff {m : Multimap κ ι} (h : m.Tidy) (key : κ) :
    key ∈ m ↔ ∃ value, value ∈ m.values key := by
  constructor
  · intro hkey
    obtain ⟨values, hvalues⟩ : ∃ values, m[key]? = some values :=
      ⟨m[key], ExtTreeMap.getElem?_eq_some_getElem hkey⟩
    have hne := h key values hvalues
    rw [Ne, ExtTreeSet.eq_empty_iff_forall_not_mem] at hne
    push Not at hne
    simpa [Multimap.values, hvalues] using hne
  · rintro ⟨value, hvalue⟩
    by_contra hkey
    simp [Multimap.values, ExtTreeMap.getElem?_eq_none hkey] at hvalue

end Multimap

namespace Index

/-! ### One node, one edge -/

lemma mem_values_enter (m : Multimap String NodeId) (name : Option String) (id : NodeId)
    (k : String) (v : NodeId) :
    v ∈ (enter m name id).values k ↔ (name = some k ∧ v = id) ∨ v ∈ m.values k := by
  cases name with
  | none => simp [enter]
  | some name => simp [enter, Multimap.mem_values_add, eq_comm (a := k)]

lemma mem_values_leave (m : Multimap String NodeId) (name : Option String) (id : NodeId)
    (k : String) (v : NodeId) :
    v ∈ (leave m name id).values k ↔ ¬ (name = some k ∧ v = id) ∧ v ∈ m.values k := by
  cases name with
  | none => simp [leave]
  | some name => simp only [leave, Multimap.mem_values_remove, Option.some.injEq, eq_comm (a := k)]

lemma tidy_enter {m : Multimap String NodeId} (h : m.Tidy) (name : Option String)
    (id : NodeId) : (enter m name id).Tidy := by
  cases name with
  | none => exact h
  | some name => exact h.add name id

lemma tidy_leave {m : Multimap String NodeId} (h : m.Tidy) (name : Option String)
    (id : NodeId) : (leave m name id).Tidy := by
  cases name with
  | none => exact h
  | some name => exact h.remove name id

/-- The nodes that an index of fields lists under a value of a field. -/
def listed (byField : ExtTreeMap String (Multimap String NodeId)) (field value : String) :
    ExtTreeSet NodeId :=
  ((byField[field]?).getD ∅).values value

lemma mem_listed_enterValue (byField : ExtTreeMap String (Multimap String NodeId))
    (id : NodeId) (pair : String × String) (field value : String) (v : NodeId) :
    v ∈ listed (enterValue id byField pair) field value ↔
      (pair = (field, value) ∧ v = id) ∨ v ∈ listed byField field value := by
  obtain ⟨f, w⟩ := pair
  simp only [listed, enterValue, ExtTreeMap.getElem?_insert, LawfulEqCmp.compare_eq_iff_eq]
  by_cases hf : f = field
  · subst hf
    simp [Multimap.mem_values_add, eq_comm (a := value)]
  · simp [hf]

lemma mem_listed_leaveValue (byField : ExtTreeMap String (Multimap String NodeId))
    (id : NodeId) (pair : String × String) (field value : String) (v : NodeId) :
    v ∈ listed (leaveValue id byField pair) field value ↔
      ¬ (pair = (field, value) ∧ v = id) ∧ v ∈ listed byField field value := by
  obtain ⟨f, w⟩ := pair
  unfold leaveValue
  by_cases hf : f = field
  · subst hf
    cases hold : byField[f]? with
    | none => simp [listed, hold, Multimap.values]
    | some values =>
      simp [listed, hold, Multimap.mem_values_remove, eq_comm (a := value)]
  · split
    · simp [listed, ExtTreeMap.getElem?_insert, hf]
    · simp [hf]

lemma mem_listed_foldl_enterValue (id : NodeId) (pairs : List (String × String))
    (byField : ExtTreeMap String (Multimap String NodeId)) (field value : String)
    (v : NodeId) :
    v ∈ listed (pairs.foldl (enterValue id) byField) field value ↔
      ((field, value) ∈ pairs ∧ v = id) ∨ v ∈ listed byField field value := by
  induction pairs generalizing byField with
  | nil => simp
  | cons pair pairs ih =>
    rw [List.foldl_cons, ih, mem_listed_enterValue, List.mem_cons, eq_comm (a := pair)]
    tauto

lemma mem_listed_foldl_leaveValue (id : NodeId) (pairs : List (String × String))
    (byField : ExtTreeMap String (Multimap String NodeId)) (field value : String)
    (v : NodeId) :
    v ∈ listed (pairs.foldl (leaveValue id) byField) field value ↔
      ¬ ((field, value) ∈ pairs ∧ v = id) ∧ v ∈ listed byField field value := by
  induction pairs generalizing byField with
  | nil => simp
  | cons pair pairs ih =>
    rw [List.foldl_cons, ih, mem_listed_leaveValue, List.mem_cons, eq_comm (a := pair)]
    tauto

lemma mem_foldl_enterValue (id : NodeId) (pairs : List (String × String))
    (byField : ExtTreeMap String (Multimap String NodeId)) (field : String) :
    field ∈ pairs.foldl (enterValue id) byField ↔
      (∃ value, (field, value) ∈ pairs) ∨ field ∈ byField := by
  induction pairs generalizing byField with
  | nil => simp
  | cons pair pairs ih =>
    obtain ⟨f, value⟩ := pair
    rw [List.foldl_cons, ih]
    simp only [enterValue, ExtTreeMap.mem_insert, LawfulEqCmp.compare_eq_iff_eq,
      List.mem_cons, Prod.mk.injEq]
    grind

lemma mem_foldl_leaveValue (id : NodeId) (pairs : List (String × String))
    (byField : ExtTreeMap String (Multimap String NodeId)) (field : String) :
    field ∈ pairs.foldl (leaveValue id) byField ↔ field ∈ byField := by
  induction pairs generalizing byField with
  | nil => simp
  | cons pair pairs ih =>
    obtain ⟨f, value⟩ := pair
    rw [List.foldl_cons, ih]
    unfold leaveValue
    split
    · next values hvalues =>
      have hf : f ∈ byField := (ExtTreeMap.getElem?_eq_some_iff.1 hvalues).1
      simp only [ExtTreeMap.mem_insert, LawfulEqCmp.compare_eq_iff_eq]
      grind
    · rfl

/-- A node has a value for a declared field when a declaration of the field covers the type
of the node and its metadata has the value. -/
lemma mem_declaredValues {fields : List FieldDecl} {node : Node} {field value : String} :
    (field, value) ∈ node.declaredValues fields ↔
      (∃ decl ∈ fields, decl.name = field ∧ decl.covers node.type) ∧
      ∃ metadata, node.metadata? = some metadata ∧
        metadataValue? metadata field = some value := by
  unfold Node.declaredValues
  split
  · next hempty => simp [List.isEmpty_iff.1 hempty]
  · cases hmetadata : node.metadata? with
    | none => simp
    | some metadata =>
      simp only [List.mem_filterMap, List.mem_filter, Option.map_eq_some_iff, Prod.mk.injEq,
        Option.some.injEq, exists_eq_left']
      constructor
      · rintro ⟨decl, ⟨hdecl, hcovers⟩, v, hvalue, rfl, rfl⟩
        exact ⟨⟨decl, hdecl, rfl, hcovers⟩, hvalue⟩
      · rintro ⟨⟨decl, hdecl, rfl, hcovers⟩, hvalue⟩
        exact ⟨decl, ⟨hdecl, hcovers⟩, value, hvalue, rfl, rfl⟩

/-! ### Descriptions -/

/-- What an index says about contents: it lists under every type, file and value exactly
the nodes that have it, and at every node exactly the edges that begin or end there.  Only
declared fields are indexed. -/
structure Describes (fields : List FieldDecl) (index : Index) (contents : Contents) :
    Prop where
  byType (type : String) (id : NodeId) : id ∈ index.byType.values type ↔
    ∃ node, contents.nodes[id]? = some node ∧ node.type = some type
  byFile (file : String) (id : NodeId) : id ∈ index.byFile.values file ↔
    ∃ node, contents.nodes[id]? = some node ∧ node.file = some file
  byField (field value : String) (id : NodeId) : id ∈ index.withValue field value ↔
    ∃ node, contents.nodes[id]? = some node ∧ (field, value) ∈ node.declaredValues fields
  outgoing (id : NodeId) (key : EdgeKey) :
    key ∈ index.outgoing.values id ↔ key ∈ contents.edges ∧ key.src = id
  incoming (id : NodeId) (key : EdgeKey) :
    key ∈ index.incoming.values id ↔ key ∈ contents.edges ∧ key.dst = id
  tidyTypes : index.byType.Tidy
  tidyFiles : index.byFile.Tidy
  declared : ∀ {field : String}, field ∈ index.byField → ∃ decl ∈ fields, decl.name = field

lemma describes_empty (fields : List FieldDecl) : Describes fields .empty .empty where
  byType := by simp [Index.empty, Contents.empty, Multimap.values]
  byFile := by simp [Index.empty, Contents.empty, Multimap.values]
  byField := by simp [Index.empty, Contents.empty, withValue, Multimap.values]
  outgoing := by simp [Index.empty, Contents.empty, Multimap.values]
  incoming := by simp [Index.empty, Contents.empty, Multimap.values]
  tidyTypes := Multimap.tidy_empty
  tidyFiles := Multimap.tidy_empty
  declared := by simp [Index.empty]

section Changes

variable {fields : List FieldDecl} {index : Index} {contents : Contents}

/-- How the nodes with a property change when a node that was not there is inserted. -/
lemma exists_insert_iff {nodes : ExtTreeMap NodeId Node} {node : Node}
    (hfresh : nodes[node.id]? = none) (p : Node → Prop) (id : NodeId) :
    (∃ n, (nodes.insert node.id node)[id]? = some n ∧ p n) ↔
      (p node ∧ id = node.id) ∨ ∃ n, nodes[id]? = some n ∧ p n := by
  simp only [ExtTreeMap.getElem?_insert, LawfulEqCmp.compare_eq_iff_eq]
  by_cases hid : node.id = id
  · subst hid
    simp [hfresh]
  · simp [hid, eq_comm (a := id)]

/-- How the nodes with a property change when a node is erased. -/
lemma exists_erase_iff {nodes : ExtTreeMap NodeId Node} {node : Node}
    (hnode : nodes[node.id]? = some node) (p : Node → Prop) (id : NodeId) :
    (∃ n, (nodes.erase node.id)[id]? = some n ∧ p n) ↔
      ¬ (p node ∧ id = node.id) ∧ ∃ n, nodes[id]? = some n ∧ p n := by
  simp only [ExtTreeMap.getElem?_erase, LawfulEqCmp.compare_eq_iff_eq]
  by_cases hid : node.id = id
  · subst hid
    simp [hnode]
  · simp [hid, eq_comm (a := id)]

lemma Describes.insertNode (h : Describes fields index contents) {node : Node}
    (hfresh : contents.nodes[node.id]? = none) :
    Describes fields (index.addNode fields node)
      { contents with nodes := contents.nodes.insert node.id node } where
  byType type id := by
    rw [exists_insert_iff hfresh (·.type = some type), ← h.byType]
    exact mem_values_enter ..
  byFile file id := by
    rw [exists_insert_iff hfresh (·.file = some file), ← h.byFile]
    exact mem_values_enter ..
  byField field value id := by
    rw [exists_insert_iff hfresh ((field, value) ∈ ·.declaredValues fields), ← h.byField]
    exact mem_listed_foldl_enterValue ..
  outgoing := h.outgoing
  incoming := h.incoming
  tidyTypes := tidy_enter h.tidyTypes _ _
  tidyFiles := tidy_enter h.tidyFiles _ _
  declared hfield := by
    obtain ⟨value, hvalue⟩ | hfield := (mem_foldl_enterValue ..).1 hfield
    · obtain ⟨⟨decl, hdecl, hname, -⟩, -⟩ := mem_declaredValues.1 hvalue
      exact ⟨decl, hdecl, hname⟩
    · exact h.declared hfield

lemma Describes.eraseNode (h : Describes fields index contents) {node : Node}
    (hnode : contents.nodes[node.id]? = some node) :
    Describes fields (index.removeNode fields node)
      { contents with nodes := contents.nodes.erase node.id } where
  byType type id := by
    rw [exists_erase_iff hnode (·.type = some type), ← h.byType]
    exact mem_values_leave ..
  byFile file id := by
    rw [exists_erase_iff hnode (·.file = some file), ← h.byFile]
    exact mem_values_leave ..
  byField field value id := by
    rw [exists_erase_iff hnode ((field, value) ∈ ·.declaredValues fields), ← h.byField]
    exact mem_listed_foldl_leaveValue ..
  outgoing := h.outgoing
  incoming := h.incoming
  tidyTypes := tidy_leave h.tidyTypes _ _
  tidyFiles := tidy_leave h.tidyFiles _ _
  declared hfield := h.declared ((mem_foldl_leaveValue ..).1 hfield)

/-- A node takes the place of one with the same identifier. -/
lemma Describes.replaceNode (h : Describes fields index contents) {old node : Node}
    (hold : contents.nodes[old.id]? = some old) (hid : old.id = node.id) :
    Describes fields ((index.removeNode fields old).addNode fields node)
      { contents with nodes := contents.nodes.insert node.id node } := by
  have hfresh : (contents.nodes.erase old.id)[node.id]? = none := by simp [hid]
  have hinserted := (h.eraseNode hold).insertNode hfresh
  have hnodes : (contents.nodes.erase old.id).insert node.id node
      = contents.nodes.insert node.id node := by
    apply ExtTreeMap.ext_getElem?
    intro id
    simp only [ExtTreeMap.getElem?_insert, ExtTreeMap.getElem?_erase, hid]
    split <;> rfl
  rwa [hnodes] at hinserted

lemma Describes.insertEdge (h : Describes fields index contents) (edge : Edge) :
    Describes fields (index.addEdge edge.key)
      { contents with edges := contents.edges.insert edge.key edge } where
  byType := h.byType
  byFile := h.byFile
  byField := h.byField
  outgoing id key := by
    simp only [addEdge, Multimap.mem_values_add, h.outgoing, ExtTreeMap.mem_insert,
      LawfulEqCmp.compare_eq_iff_eq]
    grind
  incoming id key := by
    simp only [addEdge, Multimap.mem_values_add, h.incoming, ExtTreeMap.mem_insert,
      LawfulEqCmp.compare_eq_iff_eq]
    grind
  tidyTypes := h.tidyTypes
  tidyFiles := h.tidyFiles
  declared := h.declared

lemma Describes.eraseEdge (h : Describes fields index contents) (key : EdgeKey) :
    Describes fields (index.removeEdge key)
      { contents with edges := contents.edges.erase key } where
  byType := h.byType
  byFile := h.byFile
  byField := h.byField
  outgoing id other := by
    simp only [removeEdge, Multimap.mem_values_remove, h.outgoing, ExtTreeMap.mem_erase, Ne,
      LawfulEqCmp.compare_eq_iff_eq]
    grind
  incoming id other := by
    simp only [removeEdge, Multimap.mem_values_remove, h.incoming, ExtTreeMap.mem_erase, Ne,
      LawfulEqCmp.compare_eq_iff_eq]
    grind
  tidyTypes := h.tidyTypes
  tidyFiles := h.tidyFiles
  declared := h.declared

end Changes

/-! ### Scans -/

/-- A map is rebuilt from the list of its entries. -/
lemma foldl_insert_toList {κ ι : Type} [Ord κ] [Std.TransOrd κ] [Std.LawfulEqOrd κ]
    [DecidableEq κ] (m : ExtTreeMap κ ι) :
    m.toList.foldl (fun built entry => built.insert entry.1 entry.2) ∅ = m := by
  rw [← ExtTreeMap.ofList_eq_foldl, map_ofList_toList]

section Scan

variable {fields : List FieldDecl} {index : Index} {contents : Contents}

/-- Entering nodes one after the other, none of them there before. -/
lemma Describes.foldl_insertNode (h : Describes fields index contents)
    {entries : List (NodeId × Node)} (hkeyed : ∀ entry ∈ entries, entry.2.id = entry.1)
    (hdistinct : (entries.map Prod.fst).Nodup)
    (hfresh : ∀ entry ∈ entries, contents.nodes[entry.1]? = none) :
    Describes fields (entries.foldl (fun index entry => index.addNode fields entry.2) index)
      { contents with
        nodes := entries.foldl (fun m entry => m.insert entry.1 entry.2) contents.nodes } := by
  induction entries generalizing index contents with
  | nil => exact h
  | cons entry entries ih =>
    obtain ⟨id, node⟩ := entry
    obtain rfl : node.id = id := hkeyed _ List.mem_cons_self
    rw [List.map_cons, List.nodup_cons] at hdistinct
    refine ih (h.insertNode (hfresh _ List.mem_cons_self))
      (fun other hother => hkeyed _ (List.mem_cons_of_mem _ hother)) hdistinct.2 ?_
    intro other hother
    have hne : node.id ≠ other.1 := by
      intro heq
      exact hdistinct.1 (List.mem_map.2 ⟨other, hother, heq.symm⟩)
    simpa [ExtTreeMap.getElem?_insert, hne] using hfresh _ (List.mem_cons_of_mem _ hother)

/-- Entering edges one after the other. -/
lemma Describes.foldl_insertEdge (h : Describes fields index contents)
    {entries : List (EdgeKey × Edge)} (hkeyed : ∀ entry ∈ entries, entry.2.key = entry.1) :
    Describes fields (entries.foldl (fun index entry => index.addEdge entry.1) index)
      { contents with
        edges := entries.foldl (fun m entry => m.insert entry.1 entry.2) contents.edges } := by
  induction entries generalizing index contents with
  | nil => exact h
  | cons entry entries ih =>
    obtain ⟨key, edge⟩ := entry
    obtain rfl : edge.key = key := hkeyed _ List.mem_cons_self
    exact ih (h.insertEdge edge) fun other hother => hkeyed _ (List.mem_cons_of_mem _ hother)

/-- A scan describes what was scanned. -/
theorem describes_scan (fields : List FieldDecl) (hkeyed : contents.Keyed) :
    Describes fields (scan fields contents) contents := by
  have hnodes : ∀ entry ∈ contents.nodes.toList, entry.2.id = entry.1 :=
    fun entry hentry => hkeyed.node (ExtTreeMap.mem_toList_iff_getElem?_eq_some.1 hentry)
  have hedges : ∀ entry ∈ contents.edges.toList, entry.2.key = entry.1 :=
    fun entry hentry => hkeyed.edge (ExtTreeMap.mem_toList_iff_getElem?_eq_some.1 hentry)
  have hdistinct : (contents.nodes.toList.map Prod.fst).Nodup := by
    rw [ExtTreeMap.map_fst_toList_eq_keys]
    exact ExtTreeMap.nodup_keys
  have hscan := ((describes_empty fields).foldl_insertNode hnodes hdistinct
    (by simp [Contents.empty])).foldl_insertEdge hedges
  simp only [Contents.empty, foldl_insert_toList] at hscan
  simpa only [scan, ExtTreeMap.foldl_eq_foldl_toList] using hscan

end Scan

end Index

end CodeGraph
