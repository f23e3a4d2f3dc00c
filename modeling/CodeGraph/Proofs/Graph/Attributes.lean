import Mathlib
import CodeGraph.Proofs.Graph.Query

/-!
# Looking up attributes

A query is answered by the stored nodes that have all the attributes asked for
(`Node.Answers`), except that where the values of a declared field are looked up, only nodes
of a type that a declaration of this field covers are found (`ShortLists`): a field that is
declared for some types hides the nodes of all other types.

`Reachable.mem_findByAttr` tells exactly which nodes are found.  When no declaration is
restricted to types, declaring fields and rebuilding the indexes change no answer.
-/

namespace CodeGraph

open Std (ExtTreeMap ExtTreeSet)

/-- A node has the attributes that a query asks for. -/
structure Node.Answers (node : Node) (query : AttrQuery) : Prop where
  type : ∀ {pattern : String}, query.type = some pattern →
    ∃ type, node.type = some type ∧ typeMatches pattern type
  name : ∀ {name : String}, query.name = some name → node.name = some name
  file : ∀ {file : String}, query.file = some file → node.file = some file
  exported : ∀ {exported : Bool}, query.exported = some exported → node.exported = exported
  filters : ∀ {field value : String}, (field, value) ∈ query.filters →
    ∃ metadata, node.metadata? = some metadata ∧ metadataValue? metadata field = some value

/-- A node has the values asked for when its metadata has each of them. -/
lemma Node.hasValues_iff {node : Node} {filters : List (String × String)} :
    node.hasValues filters ↔ ∀ {field value : String}, (field, value) ∈ filters →
      ∃ metadata, node.metadata? = some metadata ∧
        metadataValue? metadata field = some value := by
  unfold Node.hasValues
  cases filters with
  | nil => simp
  | cons filter filters =>
    cases node.metadata? with
    | none =>
      simp only [List.isEmpty_cons, Bool.or_self, Bool.false_eq_true, false_iff]
      intro hall
      obtain ⟨metadata, hmetadata, -⟩ := @hall filter.1 filter.2 List.mem_cons_self
      simp at hmetadata
    | some metadata =>
      rw [List.isEmpty_cons, Bool.false_or, List.all_eq_true]
      simp only [Prod.forall, beq_iff_eq, Option.some.injEq, exists_eq_left']

namespace Graph

/-- The test that is run on candidates finds out whether a node answers the query. -/
lemma satisfies_iff {query : AttrQuery} {node : Node} :
    satisfies query node ↔ node.Answers query := by
  simp only [satisfies, Bool.and_eq_true, Bool.or_eq_true, Option.isNone_iff_eq_none,
    Node.hasValues_iff, beq_iff_eq]
  constructor
  · rintro ⟨⟨⟨⟨htype, hname⟩, hfile⟩, hexported⟩, hfilters⟩
    refine ⟨fun {pattern} hpattern => ?_, fun {name} h => ?_, fun {file} h => ?_,
      fun {exported} h => ?_, hfilters⟩
    · cases hnode : node.type with
      | none => simp [hpattern, hnode] at htype
      | some type => exact ⟨type, rfl, by simpa [hpattern, hnode] using htype⟩
    · simpa [h] using hname
    · simpa [h] using hfile
    · simpa [h, eq_comm] using hexported
  · intro h
    refine ⟨⟨⟨⟨?_, ?_⟩, ?_⟩, ?_⟩, h.filters⟩
    · cases hpattern : query.type with
      | none => rfl
      | some pattern =>
        obtain ⟨type, htype, hfits⟩ := h.type hpattern
        simpa [htype] using hfits
    · cases hname : query.name with
      | none => exact .inl rfl
      | some name => exact .inr (h.name hname)
    · cases hfile : query.file with
      | none => exact .inl rfl
      | some file => exact .inr (h.file hfile)
    · cases hexported : query.exported with
      | none => exact .inl rfl
      | some exported => exact .inr (by rw [h.exported hexported])

/-- The field whose index is used for a query that names neither file nor type: that of the
first filter on an indexed field. -/
def indexedField? (g : Graph) (query : AttrQuery) : Option String :=
  match query.file, query.type with
  | none, none => (query.filters.find? fun (field, _) => g.index.byField.contains field).map
      Prod.fst
  | _, _ => none

/-- A query can find a node: if the index of a field is used, a declaration of this field
covers the type of the node. -/
def ShortLists (g : Graph) (query : AttrQuery) (node : Node) : Prop :=
  ∀ field, g.indexedField? query = some field →
    ∃ decl ∈ g.fields, decl.name = field ∧ decl.covers node.type

/-- The nodes that a scan finds to answer a query. -/
def scanFor (g : Graph) (query : AttrQuery) : List NodeId :=
  (g.nodesWhere (satisfies query)).map Node.id

namespace Consistent

variable {g : Graph}

/-- The candidates for a query are, among the nodes that answer it, those that it can
find. -/
lemma mem_candidates (h : g.Consistent) {query : AttrQuery} {node : Node}
    (hnode : g.nodes[node.id]? = some node) (hanswers : node.Answers query) :
    node.id ∈ g.candidates query ↔ g.ShortLists query node := by
  have hmem : node.id ∈ g.nodes := (ExtTreeMap.getElem?_eq_some_iff.1 hnode).1
  unfold candidates ShortLists indexedField?
  cases hfile : query.file with
  | some file =>
    have hlisted : node.id ∈ g.index.byFile.values file :=
      (h.described.byFile file node.id).2 ⟨node, hnode, hanswers.file hfile⟩
    simp [hlisted]
  | none =>
    cases htype : query.type with
    | some pattern =>
      obtain ⟨type, hnodeType, hfits⟩ := hanswers.type htype
      have hlisted : node.id ∈ g.findByType pattern :=
        (h.mem_findByType pattern node.id).2 ⟨node, hnode, by simp [hnodeType, hfits]⟩
      simp [hlisted]
    | none =>
      cases hfind : query.filters.find? fun (field, _) => g.index.byField.contains field with
      | none => simp [hmem]
      | some filter =>
        obtain ⟨field, value⟩ := filter
        have hvalue := hanswers.filters (List.mem_of_find?_eq_some hfind)
        simp [h.described.byField, hnode, Index.mem_declaredValues, hvalue]

/-- A query finds the stored nodes that answer it, as far as it can find them. -/
lemma mem_findByAttr (h : g.Consistent) {query : AttrQuery} {id : NodeId} :
    id ∈ g.findByAttr query ↔
      ∃ node, g.nodes[id]? = some node ∧ node.Answers query ∧ g.ShortLists query node := by
  simp only [findByAttr, List.mem_map, List.mem_filter, List.mem_filterMap, node?,
    satisfies_iff]
  constructor
  · rintro ⟨node, ⟨⟨id, hid, hnode⟩, hanswers⟩, rfl⟩
    obtain rfl : node.id = id := h.keyed.node hnode
    exact ⟨node, hnode, hanswers, (h.mem_candidates hnode hanswers).1 hid⟩
  · rintro ⟨node, hnode, hanswers, hlists⟩
    obtain rfl : node.id = id := h.keyed.node hnode
    exact ⟨node, ⟨⟨node.id, (h.mem_candidates hnode hanswers).2 hlists, hnode⟩, hanswers⟩,
      rfl⟩

lemma mem_scanFor (h : g.Consistent) {query : AttrQuery} {id : NodeId} :
    id ∈ g.scanFor query ↔ ∃ node, g.nodes[id]? = some node ∧ node.Answers query := by
  rw [scanFor, h.mem_ids]
  simp only [satisfies_iff]

lemma increasing_scanFor (h : g.Consistent) (query : AttrQuery) :
    IncreasingBy id (g.scanFor query) :=
  h.increasing_ids _

lemma increasing_candidates (g : Graph) (query : AttrQuery) :
    IncreasingBy id (g.candidates query) := by
  unfold candidates
  split
  · exact increasing_toList _
  · exact increasing_toList _
  · exact increasing_toList _
  · exact increasing_keys g.nodes

/-- The nodes found come by identifier, each once. -/
lemma increasing_findByAttr (h : g.Consistent) (query : AttrQuery) :
    IncreasingBy id (g.findByAttr query) := by
  rw [findByAttr, ← increasingBy_iff_map]
  refine IncreasingBy.filter (List.pairwise_filterMap.2 ?_) _
  refine (increasing_candidates g query).imp fun {a b} hlt node hnode node' hnode' => ?_
  rwa [h.keyed.node hnode, h.keyed.node hnode']

/-- Looking a query up agrees with the scan when every stored node that answers it can be
found. -/
lemma findByAttr_eq_iff (h : g.Consistent) (query : AttrQuery) :
    g.findByAttr query = g.scanFor query ↔
      ∀ {node : Node}, g.nodes[node.id]? = some node → node.Answers query →
        g.ShortLists query node := by
  constructor
  · intro heq node hnode hanswers
    have hscan : node.id ∈ g.scanFor query := h.mem_scanFor.2 ⟨node, hnode, hanswers⟩
    rw [← heq, h.mem_findByAttr] at hscan
    obtain ⟨other, hother, -, hlists⟩ := hscan
    rw [hnode] at hother
    exact Option.some.inj hother ▸ hlists
  · intro hall
    refine eq_of_increasing_of_mem_iff (h.increasing_findByAttr query)
      (h.increasing_scanFor query) fun id => ?_
    rw [h.mem_findByAttr, h.mem_scanFor]
    constructor
    · rintro ⟨node, hnode, hanswers, -⟩
      exact ⟨node, hnode, hanswers⟩
    · rintro ⟨node, hnode, hanswers⟩
      obtain rfl : node.id = id := h.keyed.node hnode
      exact ⟨node, hnode, hanswers, hall hnode hanswers⟩

/-- Where no declaration is restricted to types, every node can be found. -/
lemma shortLists_of_unrestricted (h : g.Consistent)
    (hfields : ∀ decl ∈ g.fields, decl.nodeTypes = none) (query : AttrQuery) (node : Node) :
    g.ShortLists query node := by
  intro field hfield
  have hindexed : field ∈ g.index.byField := by
    unfold indexedField? at hfield
    split at hfield
    · obtain ⟨filter, hfind, rfl⟩ := Option.map_eq_some_iff.1 hfield
      simpa using List.find?_some hfind
    · simp at hfield
  obtain ⟨decl, hdecl, hname⟩ := h.described.declared hindexed
  refine ⟨decl, hdecl, hname, ?_⟩
  simp [FieldDecl.covers, hfields decl hdecl]

/-- Where no declaration is restricted to types, a look-up agrees with the scan. -/
lemma findByAttr_eq_scanFor (h : g.Consistent)
    (hfields : ∀ decl ∈ g.fields, decl.nodeTypes = none) (query : AttrQuery) :
    g.findByAttr query = g.scanFor query :=
  (h.findByAttr_eq_iff query).2 fun {node} _ _ =>
    h.shortLists_of_unrestricted hfields query node

end Consistent

/-! ### Declarations -/

lemma mem_replaceFirst {decl other : FieldDecl} {fields : List FieldDecl}
    (h : other ∈ declare.replaceFirst decl fields) : other = decl ∨ other ∈ fields := by
  induction fields with
  | nil => simp [declare.replaceFirst] at h
  | cons f fields ih =>
    unfold declare.replaceFirst at h
    split at h
    · exact (List.mem_cons.1 h).imp_right (List.mem_cons_of_mem f)
    · obtain rfl | h := List.mem_cons.1 h
      · exact .inr List.mem_cons_self
      · exact (ih h).imp_right (List.mem_cons_of_mem f)

/-- What is declared afterwards was declared before or is among the declarations made. -/
lemma mem_foldl_declare {decls fields : List FieldDecl} {other : FieldDecl}
    (h : other ∈ decls.foldl declare fields) : other ∈ decls ∨ other ∈ fields := by
  induction decls generalizing fields with
  | nil => exact .inr h
  | cons decl decls ih =>
    obtain h | h := ih h
    · exact .inl (List.mem_cons_of_mem decl h)
    · unfold declare at h
      split at h
      · obtain rfl | h := mem_replaceFirst h
        · exact .inl List.mem_cons_self
        · exact .inr h
      · simp only [List.mem_append, List.mem_singleton] at h
        obtain h | rfl := h
        · exact .inr h
        · exact .inl List.mem_cons_self

/-! ### Reachable graphs -/

/-- In every reachable graph, a query finds by identifier and once each the stored nodes
that answer it, except those of a type that the declarations of the field looked up do not
cover.  It agrees with the scan exactly when there are no such exceptions.  While all
declarations are unrestricted there are none, and neither rebuilding the indexes nor
declaring more fields changes an answer. -/
theorem Reachable.findByAttr_exact {g : Graph} (h : Reachable g) (query : AttrQuery) :
    IncreasingBy id (g.findByAttr query) ∧
    (∀ id, id ∈ g.findByAttr query ↔
      ∃ node, g.nodes[id]? = some node ∧ node.Answers query ∧ g.ShortLists query node) ∧
    (g.findByAttr query = g.scanFor query ↔ ∀ {node : Node},
      g.nodes[node.id]? = some node → node.Answers query → g.ShortLists query node) ∧
    ((∀ decl ∈ g.fields, decl.nodeTypes = none) →
      g.findByAttr query = g.scanFor query ∧
      g.rebuild.findByAttr query = g.findByAttr query ∧
      ∀ decls : List FieldDecl, (∀ decl ∈ decls, decl.nodeTypes = none) →
        (g.declareFields decls).findByAttr query = g.findByAttr query) := by
  have hg : g.Consistent := h.consistent
  refine ⟨hg.increasing_findByAttr query, fun _ => hg.mem_findByAttr, hg.findByAttr_eq_iff query,
    fun hfields => ?_⟩
  have hscan : g.findByAttr query = g.scanFor query := hg.findByAttr_eq_scanFor hfields query
  refine ⟨hscan, ?_, fun decls hdecls => ?_⟩
  · rw [hscan]
    exact hg.rebuild.findByAttr_eq_scanFor hfields query
  · rw [hscan]
    refine (hg.declareFields decls).findByAttr_eq_scanFor (fun decl hdecl => ?_) query
    exact (mem_foldl_declare hdecl).elim (hdecls decl) (hfields decl)

/-- A call and a route, both with the value `GET` of the method. -/
def getters : List Node :=
  [{ bareNode 1 (some "call") with metadata := some "\x7b\"method\":\"GET\"\x7d" },
    { bareNode 2 (some "route") with metadata := some "\x7b\"method\":\"GET\"\x7d" }]

/-- Which nodes have the method `GET`? -/
def askGet : AttrQuery :=
  { type := none, file := none, exported := none, name := none, filters := [("method", "GET")] }

/-- The graph with these nodes, where the method is declared for the given types. -/
def gettersDeclaredFor (types : Option (List String)) : Graph :=
  ephemeral.performAll [.addNodes getters, .declareFields [⟨"method", .text, types⟩]]

lemma reachable_gettersDeclaredFor (types : Option (List String)) :
    Reachable (gettersDeclaredFor types) :=
  Reachable.ephemeral.performAll _

theorem findByAttr_exact_getters : Reachable (gettersDeclaredFor none) ∧
    (gettersDeclaredFor none).findByAttr askGet = [.ofNat 1, .ofNat 2] := by
  have hreach := reachable_gettersDeclaredFor none
  obtain ⟨-, -, -, hunrestricted⟩ := hreach.findByAttr_exact askGet
  obtain ⟨hscan, -, -⟩ := hunrestricted (by decide +kernel)
  refine ⟨hreach, ?_⟩
  rw [hscan]
  decide +kernel

/-- Where the field is declared for calls only, the route is not found, although it answers
the query.  After the call has gone it is still hidden, until the indexes are rebuilt. -/
theorem restricted_declaration_hides : Reachable (gettersDeclaredFor (some ["call"])) ∧
    (gettersDeclaredFor (some ["call"])).scanFor askGet = [.ofNat 1, .ofNat 2] ∧
    (gettersDeclaredFor (some ["call"])).findByAttr askGet = [.ofNat 1] ∧
    (gettersDeclaredFor none).findByAttr askGet = [.ofNat 1, .ofNat 2] ∧
    ((gettersDeclaredFor (some ["call"])).deleteNode (.ofNat 1)).findByAttr askGet = [] ∧
    ((gettersDeclaredFor (some ["call"])).deleteNode (.ofNat 1)).rebuild.findByAttr askGet
      = [.ofNat 2] := by
  refine ⟨reachable_gettersDeclaredFor _, ?_, ?_, ?_, ?_, ?_⟩ <;> decide +kernel

end Graph

end CodeGraph
