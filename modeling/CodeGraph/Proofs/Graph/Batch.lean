import Mathlib
import CodeGraph.Proofs.Graph.Snapshot
import CodeGraph.Proofs.Graph.Persistence
import CodeGraph.Proofs.Graph.Clearing

/-!
# What a batch leaves, also when it fails

A batch takes the nodes of some files out, with the edges at them, puts nodes and edges in,
and flushes.  What it makes of the contents is `Contents.replaced`, which does not depend on
how the flush goes (`Graph.Consistent.refilled_contents`).  Flushing is the last step and nothing
is taken back when it is refused, so a failed batch leaves the graph that a successful one
would have left, up to the count of changes.

A failed batch has changed nothing but that count exactly when it restores everything it takes
out (`Contents.Restored`) and brings no values of a field that was not indexed before.
-/

namespace CodeGraph

open Std (ExtTreeMap ExtTreeSet LawfulEqCmp)

/-! ### What a batch makes of contents -/

/-- The last of some values under a key. -/
def lastUnder {κ ι : Type} [DecidableEq κ] (keyOf : ι → κ) (values : List ι) (key : κ) :
    Option ι :=
  values.reverse.find? (keyOf · = key)

/-- Values inserted in order: under each key lies the last of them, or what was there. -/
lemma getElem?_foldl_insert {κ ι : Type} [Ord κ] [Std.TransOrd κ] [Std.LawfulEqOrd κ]
    [DecidableEq κ] (keyOf : ι → κ) (values : List ι) (m : ExtTreeMap κ ι) (key : κ) :
    (values.foldl (fun m value => m.insert (keyOf value) value) m)[key]?
      = (lastUnder keyOf values key).or m[key]? := by
  induction values generalizing m with
  | nil => rfl
  | cons value values ih =>
    have hlast : lastUnder keyOf (value :: values) key
        = (lastUnder keyOf values key).or (if keyOf value = key then some value else none) := by
      simp [lastUnder, List.find?_append, List.find?_singleton]
    rw [List.foldl_cons, ih, hlast, Option.or_assoc, ExtTreeMap.getElem?_insert]
    by_cases hkey : keyOf value = key
    · simp [hkey]
    · simp [hkey]

namespace Contents

/-- Contents in which everything in some files has been replaced. -/
def replaced (contents : Contents) (files : List String) (nodes : List Node)
    (edges : List Edge) : Contents where
  nodes := nodes.foldl (fun m node => m.insert node.id node)
    (contents.without (contents.isIn files)).nodes
  edges := edges.foldl (fun m edge => m.insert edge.key edge)
    (contents.without (contents.isIn files)).edges

/-- A batch puts back all that it takes out and otherwise brings only what is there: the last
node given under an identifier and the last edge given under a key are stored already, and
something is given for every node of the files and for every edge at one. -/
structure Restored (contents : Contents) (files : List String) (nodes : List Node)
    (edges : List Edge) : Prop where
  node : ∀ {id : NodeId} {node : Node},
    lastUnder Node.id nodes id = some node → contents.nodes[id]? = some node
  nodeBack : ∀ {id : NodeId}, contents.isIn files id = true →
    (lastUnder Node.id nodes id).isSome
  edge : ∀ {key : EdgeKey} {edge : Edge},
    lastUnder Edge.key edges key = some edge → contents.edges[key]? = some edge
  edgeBack : ∀ {key : EdgeKey}, key ∈ contents.edges →
    (contents.isIn files key.src || contents.isIn files key.dst) = true →
    (lastUnder Edge.key edges key).isSome

variable {contents : Contents}

/-- A batch leaves contents as they were exactly when it restores what it takes out. -/
lemma replaced_eq_self_iff {files : List String} {nodes : List Node} {edges : List Edge} :
    contents.replaced files nodes edges = contents ↔ contents.Restored files nodes edges := by
  have hnode : ∀ id : NodeId, (contents.replaced files nodes edges).nodes[id]?
      = (lastUnder Node.id nodes id).or
          (if contents.isIn files id then none else contents.nodes[id]?) := by
    intro id
    unfold replaced
    rw [getElem?_foldl_insert, getElem?_without_nodes]
  have hedge : ∀ key : EdgeKey, (contents.replaced files nodes edges).edges[key]?
      = (lastUnder Edge.key edges key).or
          (if contents.isIn files key.src || contents.isIn files key.dst then none
            else contents.edges[key]?) := by
    intro key
    unfold replaced
    rw [getElem?_foldl_insert, getElem?_without_edges]
  constructor
  · intro hsame
    rw [hsame] at hnode hedge
    refine ⟨fun {id node} hlast => ?_, fun {id} hin => ?_, fun {key edge} hlast => ?_,
      fun {key} hkey hends => ?_⟩
    · rw [hnode, hlast, Option.some_or]
    · have hthere : contents.nodes[id]?.isSome := by
        unfold isIn at hin
        cases hnode : contents.nodes[id]? with
        | none => simp [hnode] at hin
        | some node => rfl
      rw [hnode, if_pos hin, Option.or_none] at hthere
      exact hthere
    · rw [hedge, hlast, Option.some_or]
    · have hthere : contents.edges[key]?.isSome := by
        rw [ExtTreeMap.getElem?_eq_some_getElem hkey]
        rfl
      rw [hedge, if_pos hends, Option.or_none] at hthere
      exact hthere
  · intro h
    refine ext_getElem? (fun id => ?_) (fun key => ?_)
    · rw [hnode]
      cases hlast : lastUnder Node.id nodes id with
      | some node => rw [h.node hlast, Option.some_or]
      | none =>
        have hout : ¬ contents.isIn files id = true := by
          intro hin
          have hback := h.nodeBack hin
          rw [hlast] at hback
          simp at hback
        rw [if_neg hout, Option.none_or]
    · rw [hedge]
      cases hlast : lastUnder Edge.key edges key with
      | some edge => rw [h.edge hlast, Option.some_or]
      | none =>
        rw [Option.none_or]
        split
        · next hends =>
          -- An edge at a node that is taken out would have to be given again.
          by_contra hthere
          have hkey : key ∈ contents.edges := by
            rw [← ExtTreeMap.isSome_getElem?_iff_mem, Option.isSome_iff_ne_none]
            exact fun hnone => hthere hnone.symm
          have hback := h.edgeBack hkey hends
          rw [hlast] at hback
          simp at hback
        · rfl

end Contents

namespace Graph

/-! ### The whole batch -/

lemma Consistent.refilled_contents {g : Graph} (h : g.Consistent) (files : List String)
    (nodes : List Node) (edges : List Edge) :
    (g.refilled files nodes edges).toContents = g.toContents.replaced files nodes edges := by
  have hcleared := ((Clearing.Tells.start h).removeFiles files).left
  rw [List.nil_append] at hcleared
  set cleared := (files.foldl Clearing.removeFile ⟨g, 0, ∅, ∅, ∅⟩).graph with hdef
  obtain ⟨hnodes, hsame, -⟩ := addNodes_contents cleared nodes
  obtain ⟨hedges, hsame', -⟩ := foldl_addEdge_contents (cleared.addNodes nodes) edges
  unfold Contents.replaced
  rw [← hcleared, ← hnodes, ← hsame, ← hedges, ← hsame']
  rfl

lemma flush_fst_eq_error {g : Graph} {disk : Disk} {failure : Failure}
    (h : (g.flush disk).1 = .error failure) : failure = .io := by
  unfold flush at h
  split at h
  · simp at h
  · split at h
    · simp at h
    · exact (Except.error.inj h).symm

lemma commitBatch_eq_ok {g g' : Graph} {disk disk' : Disk} {files : List String}
    {nodes : List Node} {edges : List Edge} {delta : CommitDelta}
    (h : g.commitBatch disk files nodes edges = (.ok delta, g', disk')) :
    g' = { g.refilled files nodes edges with unflushed := 0 } := by
  unfold commitBatch at h
  dsimp only at h
  split at h
  · next hflush =>
    obtain ⟨-, hgraph⟩ := Prod.mk.inj h
    rw [← (Prod.mk.inj hgraph).1]
    exact flush_fst_eq_ok (congrArg Prod.fst hflush)
  · simp at h

lemma commitBatch_eq_error {g g' : Graph} {disk disk' : Disk} {files : List String}
    {nodes : List Node} {edges : List Edge} {failure : Failure}
    (h : g.commitBatch disk files nodes edges = (.error failure, g', disk')) :
    failure = .io ∧ g' = g.refilled files nodes edges := by
  unfold commitBatch at h
  dsimp only at h
  split at h
  · simp at h
  · next hflush =>
    obtain ⟨hfailure, hgraph⟩ := Prod.mk.inj h
    rw [← Except.error.inj hfailure]
    exact ⟨flush_fst_eq_error (congrArg Prod.fst hflush), (Prod.mk.inj hgraph).1.symm⟩

/-! ### What else a batch touches -/

/-- Two graphs that differ at most in their contents, their index and their changes. -/
def SameHousing (g g' : Graph) : Prop :=
  g' = { g with toContents := g'.toContents, index := g'.index, unflushed := g'.unflushed }

lemma SameHousing.refl (g : Graph) : SameHousing g g := rfl

lemma SameHousing.fields_eq {g g' : Graph} (h : SameHousing g g') : g'.fields = g.fields := by
  rw [h]

lemma SameHousing.snapshots_eq {g g' : Graph} (h : SameHousing g g') :
    g'.snapshots = g.snapshots := by
  rw [h]

lemma sameHousing_deleteNode {g g' : Graph} (h : SameHousing g g') (id : NodeId) :
    SameHousing g (g'.deleteNode id) := by
  unfold deleteNode
  split
  · exact h
  · refine List.foldlRecOn (motive := SameHousing g) _ dropEdge ?_ fun g'' hg'' key _ => ?_
    · unfold SameHousing at h ⊢
      rw [h]
    · unfold SameHousing at hg'' ⊢
      unfold dropEdge
      rw [hg'']

lemma sameHousing_refilled (g : Graph) (files : List String) (nodes : List Node)
    (edges : List Edge) : SameHousing g (g.refilled files nodes edges) := by
  refine refilled_keeps (P := SameHousing g) ?_ ?_ ?_ (.refl g) files nodes edges
  · exact fun _ id h => sameHousing_deleteNode h id
  · intro g' node h
    unfold SameHousing at h ⊢
    unfold addNode
    rw [h]
  · intro g' edge h
    unfold SameHousing at h ⊢
    unfold addEdge
    rw [h]

lemma mem_byField_deleteNode (g : Graph) (id : NodeId) (field : String) :
    field ∈ (g.deleteNode id).index.byField ↔ field ∈ g.index.byField := by
  unfold deleteNode
  split
  · rfl
  · next node _ =>
    refine List.foldlRecOn (motive := fun g' => field ∈ (Graph.index g').byField ↔
      field ∈ g.index.byField) _ dropEdge ?_ fun _ h _ _ => h
    exact Index.mem_foldl_leaveValue ..

lemma mem_byField_addNode (g : Graph) (node : Node) (field : String) :
    field ∈ (g.addNode node).index.byField ↔
      (∃ value, (field, value) ∈ node.declaredValues g.fields) ∨ field ∈ g.index.byField := by
  unfold addNode
  cases g.nodes[node.id]? with
  | none => exact Index.mem_foldl_enterValue ..
  | some old =>
    simp only [Index.addNode, Index.removeNode, Index.mem_foldl_enterValue,
      Index.mem_foldl_leaveValue]

lemma mem_byField_addNodes (g : Graph) (nodes : List Node) (field : String) :
    field ∈ (g.addNodes nodes).index.byField ↔
      (∃ node ∈ nodes, ∃ value, (field, value) ∈ node.declaredValues g.fields) ∨
        field ∈ g.index.byField := by
  induction nodes generalizing g with
  | nil => simp [addNodes]
  | cons node nodes ih =>
    have hrest := ih (g.addNode node)
    change field ∈ ((g.addNode node).addNodes nodes).index.byField ↔ _
    rw [hrest, mem_byField_addNode, List.exists_mem_cons_iff]
    change (∃ other ∈ nodes, ∃ value, (field, value) ∈ other.declaredValues g.fields) ∨ _ ↔ _
    rw [or_left_comm, or_assoc]

/-- A batch makes known the fields of which it brings values, and no others. -/
lemma mem_byField_refilled (g : Graph) (files : List String) (nodes : List Node)
    (edges : List Edge) (field : String) :
    field ∈ (g.refilled files nodes edges).index.byField ↔
      (∃ node ∈ nodes, ∃ value, (field, value) ∈ node.declaredValues g.fields) ∨
        field ∈ g.index.byField := by
  obtain ⟨hfields, hknown⟩ := removeFiles_keeps (c := ⟨g, 0, ∅, ∅, ∅⟩)
    (P := fun g' => g'.fields = g.fields ∧
      (field ∈ g'.index.byField ↔ field ∈ g.index.byField)) (fun g' id h => by
        obtain ⟨hfields, hknown⟩ := h
        have hsame := sameHousing_deleteNode (.refl g') id
        exact ⟨hsame.fields_eq.trans hfields,
          (mem_byField_deleteNode g' id field).trans hknown⟩) ⟨rfl, Iff.rfl⟩ files
  set cleared := (files.foldl Clearing.removeFile ⟨g, 0, ∅, ∅, ∅⟩).graph with hdef
  have hedges : (g.refilled files nodes edges).index.byField
      = (cleared.addNodes nodes).index.byField :=
    List.foldlRecOn (motive := fun g' => (Graph.index g').byField
      = (cleared.addNodes nodes).index.byField) edges addEdge rfl fun _ h _ _ => h
  rw [hedges, mem_byField_addNodes, hfields, hknown]

end Graph

/-! ### When nothing is left of a failed batch -/

namespace Index

/-- No value of a field has an empty set of nodes. -/
def TidyFields (byField : ExtTreeMap String (Multimap String NodeId)) : Prop :=
  ∀ {field : String} {values : Multimap String NodeId},
    byField[field]? = some values → values.Tidy

section TidyFields

variable {byField byField' : ExtTreeMap String (Multimap String NodeId)}

lemma TidyFields.enterValue (h : TidyFields byField) (id : NodeId) (pair : String × String) :
    TidyFields (enterValue id byField pair) := by
  intro field values hvalues
  have hold : ((byField[pair.1]?).getD ∅).Tidy := by
    cases hfield : byField[pair.1]? with
    | none => exact Multimap.tidy_empty
    | some old => exact h hfield
  unfold Index.enterValue at hvalues
  rw [ExtTreeMap.getElem?_insert] at hvalues
  split at hvalues
  · obtain rfl := Option.some.inj hvalues
    exact hold.add pair.2 id
  · exact h hvalues

lemma TidyFields.leaveValue (h : TidyFields byField) (id : NodeId) (pair : String × String) :
    TidyFields (leaveValue id byField pair) := by
  intro field values hvalues
  unfold Index.leaveValue at hvalues
  split at hvalues
  · next old hold =>
    rw [ExtTreeMap.getElem?_insert] at hvalues
    split at hvalues
    · obtain rfl := Option.some.inj hvalues
      exact (h hold).remove pair.2 id
    · exact h hvalues
  · exact h hvalues

lemma invariant_tidyFields : Graph.IndexInvariant fun index => TidyFields index.byField where
  empty := by simp [TidyFields, Index.empty]
  addNode fields _ node h :=
    List.foldlRecOn (motive := TidyFields) _ _ h fun _ h pair _ => h.enterValue node.id pair
  removeNode fields _ node h :=
    List.foldlRecOn (motive := TidyFields) _ _ h fun _ h pair _ => h.leaveValue node.id pair
  addEdge _ h := h
  removeEdge _ h := h

/-- Indexes of fields without empty sets agree when they know the same fields and list the
same nodes under every value. -/
lemma TidyFields.ext (h : TidyFields byField) (h' : TidyFields byField')
    (hknown : ∀ field, field ∈ byField ↔ field ∈ byField')
    (hlisted : ∀ field value, listed byField field value = listed byField' field value) :
    byField = byField' := by
  apply ExtTreeMap.ext_getElem?
  intro field
  by_cases hfield : field ∈ byField
  · have hfield' : field ∈ byField' := (hknown field).1 hfield
    have hget := ExtTreeMap.getElem?_eq_some_getElem hfield
    have hget' := ExtTreeMap.getElem?_eq_some_getElem hfield'
    rw [hget, hget']
    congr 1
    refine (h hget).ext (h' hget') fun value id => ?_
    have hsame := hlisted field value
    unfold listed at hsame
    rw [hget, hget', Option.getD_some, Option.getD_some] at hsame
    rw [hsame]
  · have hfield' : field ∉ byField' := fun hfield' => hfield ((hknown field).2 hfield')
    rw [ExtTreeMap.getElem?_eq_none hfield, ExtTreeMap.getElem?_eq_none hfield']

end TidyFields

end Index

namespace Graph

/-- Reachable graphs with the same contents, by the same declarations, have the same index
when they know the same fields. -/
lemma Reachable.index_unique {g g' : Graph} (h : Reachable g) (h' : Reachable g')
    (hfields : g'.fields = g.fields) (hcontents : g'.toContents = g.toContents)
    (hknown : ∀ field, field ∈ g'.index.byField ↔ field ∈ g.index.byField) :
    g'.index = g.index := by
  have hdescribed := h'.consistent.described
  rw [hfields, hcontents] at hdescribed
  obtain ⟨htype, hfile, houtgoing, hincoming, hvalues⟩ :=
    hdescribed.unique h.consistent.described h'.tidyEnds h.tidyEnds
  have hfield : g'.index.byField = g.index.byField :=
    Index.TidyFields.ext (Index.invariant_tidyFields.reachable h')
      (Index.invariant_tidyFields.reachable h) hknown hvalues
  change Index.mk g'.index.byType g'.index.byFile g'.index.byField g'.index.outgoing
    g'.index.incoming = g.index
  rw [htype, hfile, houtgoing, hincoming, hfield]

/-- A batch of a reachable graph that fails has failed in writing the image, whatever stood in
the way, and everything else has been done: what was in the files has been replaced, and the
graph is the one that a batch that goes well leaves, but for the count of changes.  Nothing
has changed except that count exactly when the batch restores all that it takes out and every
field of which it brings a value was known. -/
theorem Reachable.commitBatch_error {g g' : Graph} (h : Reachable g) {disk disk' : Disk}
    {files : List String} {nodes : List Node} {edges : List Edge} {failure : Failure}
    (hfail : g.commitBatch disk files nodes edges = (.error failure, g', disk')) :
    failure = .io ∧ g'.toContents = g.toContents.replaced files nodes edges ∧
      (∀ (other other' : Disk) (delta : CommitDelta) (committed : Graph),
        g.commitBatch other files nodes edges = (.ok delta, committed, other') →
          committed = { g' with unflushed := 0 }) ∧
      (g'.toContents = g.toContents ↔ g.toContents.Restored files nodes edges) ∧
      (g' = { g with unflushed := g'.unflushed } ↔
        g.toContents.Restored files nodes edges ∧
          ∀ node ∈ nodes, ∀ pair ∈ node.declaredValues g.fields, pair.1 ∈ g.index.byField) := by
  obtain ⟨hfailure, hgraph⟩ := commitBatch_eq_error hfail
  have hcontents : g'.toContents = g.toContents.replaced files nodes edges := by
    rw [hgraph]
    exact h.consistent.refilled_contents files nodes edges
  have hrestored : g'.toContents = g.toContents ↔ g.toContents.Restored files nodes edges := by
    rw [hcontents]
    exact Contents.replaced_eq_self_iff
  have hknown : ∀ field, field ∈ g'.index.byField ↔
      (∃ node ∈ nodes, ∃ value, (field, value) ∈ node.declaredValues g.fields) ∨
        field ∈ g.index.byField := by
    rw [hgraph]
    exact mem_byField_refilled g files nodes edges
  refine ⟨hfailure, hcontents, ?_, hrestored, ?_⟩
  · intro other other' delta committed hok
    rw [commitBatch_eq_ok hok, hgraph]
  constructor
  · intro hsame
    have hindex : g'.index = g.index := by rw [hsame]
    refine ⟨hrestored.1 (by rw [hsame]), fun node hnode pair hpair => ?_⟩
    rw [← hindex, hknown]
    exact .inl ⟨node, hnode, pair.2, hpair⟩
  · rintro ⟨hback, hfields⟩
    have hhousing : SameHousing g g' := by
      rw [hgraph]
      exact sameHousing_refilled g files nodes edges
    have hreach : Reachable g' := by
      have hstep := h.step (.commitBatch disk files nodes edges)
      change Reachable (g.commitBatch disk files nodes edges).2.1 at hstep
      rw [hfail] at hstep
      exact hstep
    have hsame : g'.toContents = g.toContents := hrestored.2 hback
    have hindex : g'.index = g.index := by
      refine h.index_unique hreach ?_ hsame fun field => ?_
      · exact hhousing.fields_eq
      · rw [hknown]
        refine ⟨?_, .inr⟩
        rintro (⟨node, hnode, value, hvalue⟩ | hold)
        · exact hfields node hnode (field, value) hvalue
        · exact hold
    unfold SameHousing at hhousing
    rw [hsame, hindex] at hhousing
    exact hhousing

/-! ### A draft that cannot be written -/

/-- The disk on which a directory has taken the place of the draft in `/db`. -/
def blockedDisk : Disk :=
  ⟨homeDisk.entries.insert ["db", "graph.bin.tmp"] .directory⟩

lemma writeImage_blocked (image : Image) :
    writeImage blockedDisk ⟨"/db"⟩ image = (false, blockedDisk) := by
  have hthere : blockedDisk.entryAt? ["db"] = some .directory := by decide +kernel
  have htaken : blockedDisk.entryAt? ["db", "graph.bin.tmp"] = some .directory := by
    simp [Disk.entryAt?, blockedDisk]
  exact writeImage_eq_false (createDirectory_db hthere) (place?_draft hthere) htaken image

/-- A batch of a graph in `/db` fails where the draft cannot be written. -/
lemma commitBatch_blocked {g : Graph} (hlocation : g.location = some ⟨"/db"⟩)
    (files : List String) (nodes : List Node) (edges : List Edge) :
    g.commitBatch blockedDisk files nodes edges
      = (.error .io, g.refilled files nodes edges, blockedDisk) := by
  have hkept : (g.refilled files nodes edges).location = some ⟨"/db"⟩ := by
    have hsame := sameHousing_refilled g files nodes edges
    rw [hsame]
    exact hlocation
  have hflush : (g.refilled files nodes edges).flush blockedDisk = (.error .io, blockedDisk) := by
    unfold flush
    rw [hkept]
    simp only
    rw [writeImage_blocked]
  unfold commitBatch
  dsimp only
  unfold refilled at hflush ⊢
  rw [hflush]

/-- A function in a file. -/
def functionIn (file : String) (n : Nat) : Node :=
  { bareNode n (some "FUNCTION") with file := some file }

/-- The question for the nodes of a file. -/
def nodesOf (file : String) : AttrQuery :=
  { type := none, file := some file, exported := none, name := none, filters := [] }

/-- A graph in `/db` with a node in the file `a.js`. -/
def held : Graph :=
  (empty (some ⟨"/db"⟩)).performAll [.addNodes [functionIn "a.js" 1]]

lemma reachable_held : Reachable held := by
  have hcreate : create homeDisk ⟨"/db"⟩ = (.ok (empty (some ⟨"/db"⟩)), homeDisk) := by
    rw [create, createDirectory_home]
  exact (Reachable.created hcreate).performAll _

/-- A batch that gives the node of its file once more changes nothing, although it fails. -/
theorem commitBatch_error_again : Reachable held ∧ ∃ g',
    held.commitBatch blockedDisk ["a.js"] [functionIn "a.js" 1] [] = (.error .io, g', blockedDisk) ∧
      g' = { held with unflushed := g'.unflushed } ∧ g'.unflushed = 3 := by
  have hlocation : held.location = some ⟨"/db"⟩ := rfl
  have hfail := commitBatch_blocked hlocation ["a.js"] [functionIn "a.js" 1] []
  obtain ⟨-, -, -, -, hsame⟩ := reachable_held.commitBatch_error hfail
  have hnodes : held.nodes = (∅ : ExtTreeMap NodeId Node).insert (.ofNat 1) (functionIn "a.js" 1) :=
    rfl
  refine ⟨reachable_held, _, hfail, hsame.2 ⟨⟨?_, ?_, ?_, ?_⟩, ?_⟩, by decide +kernel⟩
  · intro id node hlast
    simp only [lastUnder, List.reverse_singleton, List.find?_singleton] at hlast
    split at hlast
    · next hid =>
      obtain rfl := Option.some.inj hlast
      rw [← of_decide_eq_true hid]
      exact ExtTreeMap.getElem?_insert_self
    · simp at hlast
  · intro id hin
    unfold Contents.isIn at hin
    rw [hnodes, ExtTreeMap.getElem?_insert] at hin
    split at hin
    · next hid =>
      obtain rfl : NodeId.ofNat 1 = id := LawfulEqCmp.eq_of_compare hid
      decide +kernel
    · simp at hin
  · intro key edge hlast
    simp [lastUnder] at hlast
  · intro key hkey
    exact absurd hkey ExtTreeMap.not_mem_empty
  · intro node _ pair hpair
    exact absurd hpair (List.not_mem_nil)

/-- What a failed batch has done stays: the node of the file is another one, and the question
for the nodes of the file is answered by it. -/
theorem failed_batch_replaces : ∃ g g' disk, Reachable g ∧ g.location = some ⟨"/db"⟩ ∧
    g.commitBatch disk ["a.js"] [functionIn "a.js" 2] [] = (.error .io, g', disk) ∧
      g.nodes ≠ g'.nodes ∧ g.findByAttr (nodesOf "a.js") = [.ofNat 1] ∧
      g'.findByAttr (nodesOf "a.js") = [.ofNat 2] := by
  have hlocation : held.location = some ⟨"/db"⟩ := rfl
  have hfail := commitBatch_blocked hlocation ["a.js"] [functionIn "a.js" 2] []
  refine ⟨held, _, blockedDisk, reachable_held, hlocation, hfail, ?_, by decide +kernel,
    by decide +kernel⟩
  intro hsame
  have hgone : (held.refilled ["a.js"] [functionIn "a.js" 2] []).nodes.contains (.ofNat 1)
      = false := by decide +kernel
  rw [← hsame] at hgone
  exact absurd hgone (by decide +kernel)

end Graph

end CodeGraph
