import Mathlib
import CodeGraph.Proofs.Graph.Query
import CodeGraph.Proofs.Rules.Kinds

/-!
# Built-in predicates as look-ups

A built-in predicate looks up facts of the graph and unifies its terms with the values of
each fact: nodes and their types, edges, reachable nodes, values of an attribute.  This is
what it does with free variables and with bound ones, as long as the atom respects the kinds
of its variables, so every built-in atom is answered exactly (`answersExactly_builtin`).
-/

namespace CodeGraph.Rules

open Std (ExtTreeMap)

variable {g : Graph} {sig : Signature} {Γ : String → Kind}

/-! ### Look-ups -/

section Lookup

variable {answers : Atom → List Bindings} {atom : Atom}

lemma Term.bind_empty (term : Term) : term.bind ∅ = term := by
  cases term <;> simp [Term.bind]

lemma Atom.bind_empty (atom : Atom) : atom.bind ∅ = atom := by
  rw [Atom.bind, List.map_id'' Term.bind_empty]

/-- An atom whose terms are unified with the values of facts is answered exactly. -/
lemma answersExactly_of_lookup {ι : Type} (fact : ι → Prop) (pairs : ι → List (Term × Value))
    (hlookup : ∀ b : Bindings,
      (∀ {x : String} {v : Value}, b[x]? = some v → (Γ x).Admits g v) →
      ∀ s : Bindings, s ∈ answers (atom.bind b) ↔
        ∃ i, fact i ∧ unifyAll ((pairs i).map fun p => (p.1.bind b, p.2)) ∅ = some s)
    (htakes : ∀ i, fact i → ∀ term v, (term, v) ∈ pairs i → term.Takes g Γ v)
    (hvars : ∀ i, fact i → ∀ x, x ∈ atom.vars ↔ ∃ v, (.var x, v) ∈ pairs i) :
    AnswersExactly answers (fun x => (Γ x).Admits g) atom := by
  have hfree : ∀ s : Bindings, s ∈ answers atom ↔
      ∃ i, fact i ∧ (∀ x, x ∈ s ↔ ∃ v, (.var x, v) ∈ pairs i) ∧
        ∀ term v, (term, v) ∈ pairs i → term.Is s v := by
    intro s
    have hbind := hlookup ∅ (by simp) s
    simpa only [Atom.bind_empty, Term.bind_empty, Prod.mk.eta, List.map_id',
      unifyAll_empty_eq_some_iff] using hbind
  -- Once all variables are bound, a fact is found whose values the terms have.
  have hbound : ∀ s : Bindings, s.Assigns (fun x => (Γ x).Admits g) atom.vars →
      (answers (atom.ground s.text) ≠ [] ↔
        ∃ i, fact i ∧ ∀ term v, (term, v) ∈ pairs i → term.Is s v) := by
    intro s hs
    rw [← Atom.bind_eq_ground fun x hx => (hs.covers x).2 hx, ← List.length_pos_iff,
      List.length_pos_iff_exists_mem]
    simp only [hlookup s hs.kinds, unifyAll_empty_eq_some_iff, List.mem_map, Prod.mk.injEq,
      Prod.exists]
    have his : ∀ i, fact i → ∀ term v, (term, v) ∈ pairs i →
        ((term.bind s).Is ∅ v ↔ term.Is s v) := by
      intro i hi term v hterm
      refine (htakes i hi term v hterm).is_bind (fun x hx => ?_) hs.kinds
      exact (hs.covers x).2 ((hvars i hi x).2 ⟨v, hx ▸ hterm⟩)
    have hground : ∀ i, fact i → ∀ x term v, (term, v) ∈ pairs i → term.bind s ≠ .var x := by
      intro i hi x term v hterm hx
      obtain ⟨rfl, hfree⟩ := Term.var?_bind.1 (congrArg Term.var? hx)
      exact hfree ((hs.covers x).2 ((hvars i hi x).2 ⟨v, hterm⟩))
    constructor
    · rintro ⟨s', i, hi, hcovers, hvalues⟩
      have hempty : s' = ∅ := ExtTreeMap.eq_empty_iff_forall_not_mem.2 fun x hx => by
        obtain ⟨_, term, v, hterm, hx, -⟩ := (hcovers x).1 hx
        exact hground i hi x term v hterm hx
      subst hempty
      exact ⟨i, hi, fun term v hterm =>
        (his i hi term v hterm).1 (hvalues _ _ ⟨term, v, hterm, rfl, rfl⟩)⟩
    · rintro ⟨i, hi, hvalues⟩
      refine ⟨∅, i, hi, fun x => ?_, ?_⟩
      · simp only [ExtTreeMap.not_mem_empty, false_iff]
        rintro ⟨_, term, v, hterm, hx, -⟩
        exact hground i hi x term v hterm hx
      · rintro _ _ ⟨term, v, hterm, rfl, rfl⟩
        exact (his i hi term v hterm).2 (hvalues term v hterm)
  intro s
  rw [hfree]
  constructor
  · rintro ⟨i, hi, hcovers, his⟩
    have hs : s.Assigns (fun x => (Γ x).Admits g) atom.vars := by
      refine ⟨fun x => (hcovers x).trans (hvars i hi x).symm, fun {x v} hx => ?_⟩
      obtain ⟨w, hw⟩ := (hcovers x).1 (Bindings.mem_iff.2 ⟨v, hx⟩)
      obtain rfl : w = v := Option.some.inj ((his _ w hw).symm.trans hx)
      exact htakes i hi _ w hw
    exact ⟨hs, (hbound s hs).2 ⟨i, hi, his⟩⟩
  · rintro ⟨hs, hanswers⟩
    obtain ⟨i, hi, his⟩ := (hbound s hs).1 hanswers
    exact ⟨i, hi, fun x => (hs.covers x).trans (hvars i hi x), his⟩

end Lookup

/-! ### Texts, attributes and paths -/

lemma mem_matchText {value : String} {term : Term} {s : Bindings} :
    s ∈ matchText value term ↔ unifyAll [(term, .text value)] ∅ = some s := by
  rw [unifyAll_singleton]
  cases term with
  | var x =>
    rw [matchText, unify_empty_var, List.mem_singleton, Option.some.injEq]
    exact eq_comm
  | const c =>
    rw [matchText, unify_const]
    by_cases hc : c = value
    · simp only [hc, Value.isNamed, if_true, beq_self_eq_true, List.mem_singleton,
        Option.some.injEq]
      exact eq_comm
    · simp [hc, Value.isNamed, Ne.symm hc]
  | anonymous =>
    rw [matchText, unify_anonymous, List.mem_singleton, Option.some.injEq]
    exact eq_comm

/-- The values of an attribute are looked up. -/
lemma mem_attrAnswers {c : String} {name value : Term} {s : Bindings}
    (hname : name.var? = none) : s ∈ attrAnswers g (.const c) name value ↔
      ∃ v, (∃ n, name = .const n ∧ (g.node? (.parse c)).bind (attribute? · n) = some v) ∧
        unifyAll [(value, .text v)] ∅ = some s := by
  cases name with
  | var x => simp [Term.var?] at hname
  | const n =>
    simp only [attrAnswers, Term.const.injEq, exists_eq_left']
    cases (g.node? (.parse c)).bind (attribute? · n) with
    | none => simp
    | some v => simp [mem_matchText]
  | anonymous => simp [attrAnswers]

/-- What can be reached is looked up. -/
lemma mem_pathAnswers {c : String} {target : Term} {s : Bindings} :
    s ∈ pathAnswers g (.const c) target ↔
      ∃ id, (id ∈ g.reach [.parse c] maxPathLength [] ∧ id ≠ .parse c) ∧
        unifyAll [(target, .node id)] ∅ = some s := by
  set reached := (g.reach [NodeId.parse c] maxPathLength []).filter (· ≠ .parse c) with hreached
  have hmem : ∀ id, id ∈ reached ↔
      id ∈ g.reach [NodeId.parse c] maxPathLength [] ∧ id ≠ .parse c := by
    simp [hreached]
  simp only [unifyAll_singleton, ← hmem]
  cases target with
  | var x =>
    simp only [unify_empty_var, Option.some.injEq]
    exact List.mem_map
  | const d =>
    simp only [pathAnswers, unify_const, ← hreached, Value.isNamed, List.contains_iff_mem,
      beq_iff_eq, Option.ite_none_right_eq_some, Option.some.injEq]
    split
    · next hd =>
      rw [List.mem_singleton]
      constructor
      · rintro rfl
        exact ⟨_, hd, rfl, rfl⟩
      · rintro ⟨id, -, -, rfl⟩
        rfl
    · next hd =>
      simp only [List.not_mem_nil, false_iff]
      rintro ⟨id, hid, rfl, -⟩
      exact hd hid
  | anonymous =>
    simp only [pathAnswers, unify_anonymous, ← hreached, List.isEmpty_iff, Option.some.injEq]
    split
    · next hnone => simp [hnone]
    · next hsome =>
      rw [List.mem_singleton]
      constructor
      · rintro rfl
        obtain ⟨id, hid⟩ := List.exists_mem_of_ne_nil _ hsome
        exact ⟨id, hid, rfl⟩
      · rintro ⟨id, -, rfl⟩
        rfl

/-! ### Edges -/

section Binding

variable {incoming : Bool} {anchor other : Term} {edge : Edge} {anchorId otherId : NodeId}

/-- The binding that an edge gives to its ends unifies the terms for them, once a constant
for the anchor has been checked. -/
lemma edgeBinding?_none
    (hends : (if incoming then (edge.dst, edge.src) else (edge.src, edge.dst))
      = (anchorId, otherId))
    (hanchor : ∀ c, anchor = .const c → NodeId.parse c = anchorId) :
    edgeBinding? incoming anchor other none edge
      = unifyAll [(anchor, .node anchorId), (other, .node otherId)] ∅ := by
  unfold edgeBinding?
  rw [hends, unifyAll_cons]
  cases anchor with
  | var x =>
    rw [unify_empty_var, Option.bind_some, unifyAll_singleton]
    cases other with
    | var y => cases hy : (Bindings.single x (.node anchorId))[y]? <;> simp [unify, hy]
    | const c => simp [unify, Value.isNamed]
    | anonymous => rfl
  | const c =>
    have hnamed : (Value.node anchorId).isNamed c := beq_iff_eq.2 (hanchor c rfl)
    rw [unify_const, if_pos hnamed, Option.bind_some, unifyAll_singleton]
    cases other with
    | var y => simp [unify]
    | const c => simp [unify, Value.isNamed]
    | anonymous => rfl
  | anonymous =>
    rw [unify_anonymous, Option.bind_some, unifyAll_singleton]
    cases other with
    | var y => simp [unify]
    | const c => simp [unify, Value.isNamed]
    | anonymous => rfl

/-- The binding that an edge gives unifies the terms with the parts of the edge, once the
constants for the anchor and the type have been checked. -/
lemma edgeBinding?_eq_unifyAll {type : Option Term}
    (hends : (if incoming then (edge.dst, edge.src) else (edge.src, edge.dst))
      = (anchorId, otherId))
    (hanchor : ∀ c, anchor = .const c → NodeId.parse c = anchorId)
    (htype : ∀ c, type = some (.const c) → c = edge.type.getD "")
    (hvar : ∀ x, type = some (.var x) → anchor ≠ .var x ∧ other ≠ .var x) :
    edgeBinding? incoming anchor other type edge = unifyAll ((anchor, .node anchorId) ::
      (other, .node otherId) :: type.toList.map (·, .text (edge.type.getD ""))) ∅ := by
  have hends' : edgeBinding? incoming anchor other none edge
      = unifyAll [(anchor, .node anchorId), (other, .node otherId)] ∅ :=
    edgeBinding?_none hends hanchor
  have happend : unifyAll ((anchor, .node anchorId) :: (other, .node otherId) ::
      type.toList.map (·, .text (edge.type.getD ""))) ∅ =
      (edgeBinding? incoming anchor other none edge).bind
        (unifyAll (type.toList.map (·, .text (edge.type.getD "")))) := by
    rw [hends', ← unifyAll_append]
    rfl
  have hinsert : ∀ x, edgeBinding? incoming anchor other (some (.var x)) edge
      = (edgeBinding? incoming anchor other none edge).map fun bound =>
        bound.insert x (.text (edge.type.getD "")) := fun _ => rfl
  have hconst : ∀ c, edgeBinding? incoming anchor other (some (.const c)) edge
      = edgeBinding? incoming anchor other none edge := fun _ => rfl
  have hanonymous : edgeBinding? incoming anchor other (some .anonymous) edge
      = edgeBinding? incoming anchor other none edge := rfl
  rw [happend]
  cases hbinding : edgeBinding? incoming anchor other none edge with
  | none => rcases type with _ | x | c | _ <;> simp [hinsert, hconst, hanonymous, hbinding]
  | some b =>
    rw [Option.bind_some]
    rcases type with _ | x | c | _
    · exact hbinding
    · -- The variable for the type is none of those bound so far.
      obtain ⟨hanchorVar, hotherVar⟩ := hvar x rfl
      have hnew : x ∉ b := by
        rw [hends', unifyAll_empty_eq_some_iff] at hbinding
        rw [hbinding.1]
        simp [hanchorVar.symm, hotherVar.symm]
      rw [hinsert, hbinding]
      simp [unifyAll_singleton, unify, Bindings.not_mem_iff.1 hnew]
    · have hnamed : (Value.text (edge.type.getD "")).isNamed c :=
        beq_iff_eq.2 (htype c rfl).symm
      have hkept : unifyAll [(.const c, .text (edge.type.getD ""))] b = some b := by
        rw [unifyAll_singleton, unify_const, if_pos hnamed]
      rw [hconst, hbinding]
      exact hkept.symm
    · rw [hanonymous, hbinding]
      rfl

/-- The end of an edge that is its anchor. -/
def anchorOf (incoming : Bool) (edge : Edge) : NodeId :=
  if incoming then edge.dst else edge.src

/-- The end of an edge that is not its anchor. -/
def otherOf (incoming : Bool) (edge : Edge) : NodeId :=
  if incoming then edge.src else edge.dst

/-- The terms of an edge atom with the parts of an edge that they stand for. -/
def edgePairs (incoming : Bool) (anchor other : Term) (type : Option Term) (edge : Edge) :
    List (Term × Value) :=
  (anchor, .node (anchorOf incoming edge)) :: (other, .node (otherOf incoming edge)) ::
    type.toList.map (·, .text (edge.type.getD ""))

variable {type : Option Term} {s : Bindings}

/-- The type that an edge atom asks for by a constant. -/
def constantType? : Option Term → Option String
  | some (.const c) => some c
  | _ => none

/-- The edges at a known anchor are those with this anchor and the type asked for. -/
lemma mem_anchoredEdges_const (h : g.Consistent) (c : String) :
    edge ∈ anchoredEdges g incoming (.const c) type ↔ edge ∈ g.allEdges ∧
      NodeId.parse c = anchorOf incoming edge ∧
      ∀ t, type = some (.const t) → t = edge.type.getD "" := by
  have hknown : edge ∈ anchoredEdges g incoming (.const c) type ↔ edge ∈ g.edgesWhere fun edge =>
      anchorOf incoming edge == NodeId.parse c &&
        Graph.wantsType ((constantType? type).map ([·])) edge.key.type := by
    cases incoming with
    | true =>
      have hincoming := h.incomingEdges_eq (.parse c) ((constantType? type).map ([·]))
      exact iff_of_eq (congrArg (edge ∈ ·) hincoming)
    | false =>
      have houtgoing := h.outgoingEdges_eq (.parse c) ((constantType? type).map ([·]))
      exact iff_of_eq (congrArg (edge ∈ ·) houtgoing)
  rw [hknown, Graph.edgesWhere, List.mem_filter, Bool.and_eq_true, beq_iff_eq,
    eq_comm (b := NodeId.parse c)]
  refine and_congr_right fun _ => and_congr_right fun _ => ?_
  rcases type with _ | x | t | _ <;> simp [constantType?, Graph.wantsType, Edge.key]
  exact eq_comm

/-- With an unknown anchor, all edges with the type asked for are taken. -/
lemma mem_anchoredEdges_free (hanchor : ∀ c, anchor ≠ .const c)
    (htyped : (∀ term ∈ type, term.NotEmptyType) ∨ ∀ edge ∈ g.allEdges, edge.type ≠ none) :
    edge ∈ anchoredEdges g false anchor type ↔ edge ∈ g.allEdges ∧
      ∀ t, type = some (.const t) → t = edge.type.getD "" := by
  have hfree : anchoredEdges g false anchor type = g.allEdges.filter fun edge =>
      (constantType? type).isNone || edge.type == constantType? type := by
    cases anchor with
    | const c => exact absurd rfl (hanchor c)
    | var x => rfl
    | anonymous => rfl
  rw [hfree, List.mem_filter]
  refine and_congr_right fun hedge => ?_
  rcases type with _ | x | t | _
  · simp [constantType?]
  · simp [constantType?]
  · cases htype : edge.type with
    | some t' =>
      simp [constantType?]
      exact eq_comm
    | none =>
      have hne : t ≠ "" := htyped.elim (fun hall => hall _ rfl) fun hall =>
        absurd htype (hall edge hedge)
      simp [constantType?, hne]
  · simp [constantType?]

/-- The edges at an anchor are those whose anchor and type are the constants asked for. -/
lemma mem_anchoredEdges (h : g.Consistent) (hready : incoming → ∃ c, anchor = .const c)
    (htyped : (∃ c, anchor = .const c) ∨ (∀ term ∈ type, term.NotEmptyType) ∨
      ∀ edge ∈ g.allEdges, edge.type ≠ none) :
    edge ∈ anchoredEdges g incoming anchor type ↔ edge ∈ g.allEdges ∧
      (∀ c, anchor = .const c → NodeId.parse c = anchorOf incoming edge) ∧
      ∀ c, type = some (.const c) → c = edge.type.getD "" := by
  by_cases hconst : ∃ c, anchor = .const c
  · obtain ⟨c, rfl⟩ := hconst
    rw [mem_anchoredEdges_const h]
    simp
  · obtain rfl : incoming = false := by
      cases incoming
      · rfl
      · exact absurd (hready rfl) hconst
    rw [mem_anchoredEdges_free (fun c hc => hconst ⟨c, hc⟩) (htyped.resolve_left hconst)]
    have hnone : ∀ c, anchor = .const c → NodeId.parse c = anchorOf false edge :=
      fun c hc => absurd ⟨c, hc⟩ hconst
    exact ⟨fun ⟨hedge, htype⟩ => ⟨hedge, hnone, htype⟩,
      fun ⟨hedge, _, htype⟩ => ⟨hedge, htype⟩⟩

/-- Edges are looked up. -/
lemma mem_edgeAnswers (h : g.Consistent) (hready : incoming → ∃ c, anchor = .const c)
    (htyped : (∃ c, anchor = .const c) ∨ (∀ term ∈ type, term.NotEmptyType) ∨
      ∀ edge ∈ g.allEdges, edge.type ≠ none)
    (hvar : ∀ edge ∈ g.allEdges, ∀ x, type = some (.var x) →
      anchor ≠ .var x ∧ other ≠ .var x) :
    s ∈ edgeAnswers g incoming anchor other type ↔
      ∃ edge, edge ∈ g.allEdges ∧
        unifyAll (edgePairs incoming anchor other type edge) ∅ = some s := by
  simp only [edgeAnswers, List.mem_filterMap, mem_anchoredEdges h hready htyped]
  refine exists_congr fun edge => ?_
  have hends : (if incoming then (edge.dst, edge.src) else (edge.src, edge.dst))
      = (anchorOf incoming edge, otherOf incoming edge) := by
    cases incoming <;> rfl
  constructor
  · rintro ⟨⟨hedge, hanchor, htype⟩, hbinding⟩
    rw [edgeBinding?_eq_unifyAll hends hanchor htype (hvar edge hedge)] at hbinding
    exact ⟨hedge, hbinding⟩
  · rintro ⟨hedge, hunify⟩
    have his := (unifyAll_empty_eq_some_iff.1 hunify).2
    have hanchor : ∀ c, anchor = .const c → NodeId.parse c = anchorOf incoming edge := by
      rintro c rfl
      have hnamed := his (.const c) (.node (anchorOf incoming edge)) (by simp [edgePairs])
      simpa [Term.Is, Value.isNamed] using hnamed
    have htype : ∀ c, type = some (.const c) → c = edge.type.getD "" := by
      rintro c rfl
      have hnamed := his (.const c) (.text (edge.type.getD "")) (by simp [edgePairs])
      exact (beq_iff_eq.1 hnamed).symm
    refine ⟨⟨hedge, hanchor, htype⟩, ?_⟩
    rw [edgeBinding?_eq_unifyAll hends hanchor htype (hvar edge hedge)]
    exact hunify

end Binding

/-! ### Nodes -/

/-- The types that are counted are those of the stored nodes. -/
lemma mem_countNodes (h : g.Consistent) {value : String} :
    (∃ n, (value, n) ∈ g.countNodes none) ↔
      ∃ node : Node, g.nodes[node.id]? = some node ∧ node.type = some value := by
  rw [h.countNodes_eq_tally]
  simp [mem_tally, Graph.fitsOneOf, Graph.nodeTypes, h.mem_nodesWhere]

/-- Read as a pattern, a type fits itself. -/
lemma typeMatches_self (type : String) : typeMatches type type := by
  unfold typeMatches
  split
  · exact List.isPrefixOf_iff_prefix.2 (List.dropLast_prefix _)
  · exact beq_self_eq_true type

/-- A label as a pattern finds the nodes of its type. -/
lemma mem_findByType_label (h : g.Consistent) {label : String} (hlabel : IsLabel g label)
    {id : NodeId} : id ∈ g.findByType label ↔
      ∃ node, g.nodes[id]? = some node ∧ node.type = some label := by
  rw [h.mem_findByType]
  refine exists_congr fun node => and_congr_right fun hnode => ?_
  rw [Option.any_eq_true]
  constructor
  · rintro ⟨type, htype, hfits⟩
    rw [htype, hlabel id node type hnode htype hfits]
  · intro htype
    exact ⟨label, htype, typeMatches_self label⟩

section Nodes

variable {type : Term} {s : Bindings}

/-- The type of a known node is looked up. -/
lemma mem_nodeAnswers_const (h : g.Consistent) (c : String) :
    s ∈ nodeAnswers g (.const c) type ↔ ∃ (node : Node) (t : String),
      (g.nodes[node.id]? = some node ∧ node.type = some t) ∧
        unifyAll [(.const c, .node node.id), (type, .text t)] ∅ = some s := by
  have hunify : ∀ (id : NodeId) (t : String),
      unifyAll [(.const c, .node id), (type, .text t)] ∅ = some s ↔
        NodeId.parse c = id ∧ s ∈ matchText t type := by
    intro id t
    rw [unifyAll_cons, unify_const, mem_matchText]
    by_cases hc : NodeId.parse c = id <;> simp [Value.isNamed, hc]
  simp only [hunify, nodeAnswers, Graph.node?]
  constructor
  · intro hs
    split at hs
    · next t ht =>
      obtain ⟨node, hnode, htype⟩ := Option.bind_eq_some_iff.1 ht
      have hid : node.id = NodeId.parse c := h.keyed.node hnode
      exact ⟨node, t, ⟨hid ▸ hnode, htype⟩, hid.symm, hs⟩
    · simp at hs
  · rintro ⟨node, t, ⟨hnode, htype⟩, hid, hs⟩
    have ht : g.nodes[NodeId.parse c]?.bind Node.type = some t := by
      rw [hid, hnode]
      exact htype
    rwa [ht]

/-- The nodes of a type are looked up. -/
lemma mem_nodeAnswers_var_const (h : g.Consistent) (x : String) {label : String}
    (hlabel : IsLabel g label) : s ∈ nodeAnswers g (.var x) (.const label) ↔
      ∃ (node : Node) (t : String), (g.nodes[node.id]? = some node ∧ node.type = some t) ∧
        unifyAll [(.var x, .node node.id), (.const label, .text t)] ∅ = some s := by
  have hunify : ∀ (id : NodeId) (t : String),
      unifyAll [(.var x, .node id), (.const label, .text t)] ∅ = some s ↔
        t = label ∧ .single x (.node id) = s := by
    intro id t
    rw [unifyAll_cons, unify_empty_var, Option.bind_some, unifyAll_singleton, unify_const]
    by_cases ht : t = label <;> simp [Value.isNamed, ht]
  simp only [hunify, nodeAnswers, List.mem_map, Std.ExtTreeSet.mem_toList,
    mem_findByType_label h hlabel]
  constructor
  · rintro ⟨id, ⟨node, hnode, htype⟩, hs⟩
    obtain rfl : node.id = id := h.keyed.node hnode
    exact ⟨node, label, ⟨hnode, htype⟩, rfl, hs⟩
  · rintro ⟨node, t, ⟨hnode, htype⟩, rfl, hs⟩
    exact ⟨node.id, ⟨node, hnode, htype⟩, hs⟩

/-- The nodes with their types are looked up, type by type. -/
lemma mem_nodeAnswers_var_var (h : g.Consistent) {x y : String} (hne : x ≠ y)
    (hlabels : ∀ {i : NodeId} {node : Node} {t : String}, g.nodes[i]? = some node →
      node.type = some t → IsLabel g t) : s ∈ nodeAnswers g (.var x) (.var y) ↔
      ∃ (node : Node) (t : String), (g.nodes[node.id]? = some node ∧ node.type = some t) ∧
        unifyAll [(.var x, .node node.id), (.var y, .text t)] ∅ = some s := by
  have hunify : ∀ (id : NodeId) (t : String),
      unifyAll [(.var x, .node id), (.var y, .text t)] ∅ = some s ↔
        (Bindings.single x (.node id)).insert y (.text t) = s := by
    intro id t
    rw [unifyAll_cons, unify_empty_var, Option.bind_some, unifyAll_singleton, unify]
    simp [Bindings.getElem?_single, hne]
  simp only [hunify, nodeAnswers, List.mem_flatMap, List.mem_map, Std.ExtTreeSet.mem_toList,
    Prod.exists]
  constructor
  · rintro ⟨t, n, ht, id, hid, hs⟩
    obtain ⟨node, hnode, htype⟩ := (mem_countNodes h).1 ⟨n, ht⟩
    obtain ⟨found, hfound, hfoundType⟩ :=
      (mem_findByType_label h (hlabels hnode htype)).1 hid
    obtain rfl : found.id = id := h.keyed.node hfound
    exact ⟨found, t, ⟨hfound, hfoundType⟩, hs⟩
  · rintro ⟨node, t, ⟨hnode, htype⟩, hs⟩
    obtain ⟨n, hn⟩ := (mem_countNodes h).2 ⟨node, hnode, htype⟩
    exact ⟨t, n, hn, node.id,
      (mem_findByType_label h (hlabels hnode htype)).2 ⟨node, hnode, htype⟩, hs⟩

/-- The nodes that have a type are looked up. -/
lemma mem_nodeAnswers_var_anonymous (h : g.Consistent) (x : String) :
    s ∈ nodeAnswers g (.var x) .anonymous ↔
      ∃ (node : Node) (t : String), (g.nodes[node.id]? = some node ∧ node.type = some t) ∧
        unifyAll [(.var x, .node node.id), (.anonymous, .text t)] ∅ = some s := by
  have hunify : ∀ (id : NodeId) (t : String),
      unifyAll [(.var x, .node id), (.anonymous, .text t)] ∅ = some s ↔
        .single x (.node id) = s := by
    intro id t
    rw [unifyAll_cons, unify_empty_var, Option.bind_some, unifyAll_singleton,
      unify_anonymous, Option.some.injEq]
  simp only [hunify, nodeAnswers, List.mem_flatMap, List.mem_map, Std.ExtTreeSet.mem_toList,
    Prod.exists, h.mem_findByType, Option.any_eq_true]
  constructor
  · rintro ⟨_, _, -, id, ⟨node, hnode, t, htype, -⟩, hs⟩
    obtain rfl : node.id = id := h.keyed.node hnode
    exact ⟨node, t, ⟨hnode, htype⟩, hs⟩
  · rintro ⟨node, t, ⟨hnode, htype⟩, hs⟩
    obtain ⟨n, hn⟩ := (mem_countNodes h).2 ⟨node, hnode, htype⟩
    exact ⟨t, n, hn, node.id, ⟨node, hnode, t, htype, typeMatches_self t⟩, hs⟩

/-- Nodes and their types are looked up, if the type is a label where the node is free. -/
lemma mem_nodeAnswers (h : g.Consistent) {id : Term} (hknown : id ≠ .anonymous)
    (hlabel : ∀ x, id = .var x → (∀ c, type = .const c → IsLabel g c) ∧
      ∀ y, type = .var y → x ≠ y ∧ ∀ {i : NodeId} {node : Node} {t : String},
        g.nodes[i]? = some node → node.type = some t → IsLabel g t) :
    s ∈ nodeAnswers g id type ↔ ∃ (node : Node) (t : String),
      (g.nodes[node.id]? = some node ∧ node.type = some t) ∧
        unifyAll [(id, .node node.id), (type, .text t)] ∅ = some s := by
  cases id with
  | const c => exact mem_nodeAnswers_const h c
  | anonymous => exact absurd rfl hknown
  | var x =>
    obtain ⟨hconst, hvar⟩ := hlabel x rfl
    cases type with
    | const c => exact mem_nodeAnswers_var_const h x (hconst c rfl)
    | var y => exact mem_nodeAnswers_var_var h (hvar y rfl).1 (hvar y rfl).2
    | anonymous => exact mem_nodeAnswers_var_anonymous h x

end Nodes

/-! ### Atoms with built-in predicates -/

/-- What has to be known before a built-in atom is asked is a constant. -/
lemma Atom.IsReady.exists_const {predicate : String} {first : Term} {rest : List Term}
    (h : (Atom.mk predicate (first :: rest)).IsReady)
    (hpredicate : predicate ∈ ["attr", "incoming", "path"]) : ∃ c, first = .const c := by
  have hinputs : ∀ n, inputPositions predicate n = [0] := fun n => by
    rw [inputPositions, if_pos (List.contains_iff_mem.2 hpredicate)]
  simp only [Atom.IsReady, Literal.isReady, hinputs] at h
  cases first with
  | const c => exact ⟨c, rfl⟩
  | var x => simp [Term.isBound] at h
  | anonymous => simp [Term.isBound] at h

/-- All terms of a comparison that is asked are constants. -/
lemma Atom.IsReady.vars_eq_nil {predicate : String} {args : List Term}
    (h : (Atom.mk predicate args).IsReady)
    (hpredicate : predicate ∈ ["neq", "starts_with", "not_starts_with", "string_contains"]) :
    (Atom.mk predicate args).vars = [] := by
  have hinputs : ∀ n, inputPositions predicate n = List.range n := fun n => by
    simp only [List.mem_cons, List.not_mem_nil, or_false] at hpredicate
    obtain rfl | rfl | rfl | rfl := hpredicate <;> rfl
  simp only [Atom.IsReady, Literal.isReady, hinputs, List.all_eq_true, List.mem_range] at h
  refine List.eq_nil_iff_forall_not_mem.2 fun x hx => ?_
  obtain ⟨i, hi⟩ := List.getElem?_of_mem (Atom.mem_vars.1 hx)
  have hbound := h i (List.getElem?_eq_some_iff.1 hi).1
  simp only at hi
  simp [hi, Term.isBound] at hbound

lemma Atom.ground_of_vars_eq_nil {atom : Atom} (h : atom.vars = []) (τ : String → String) :
    atom.ground τ = atom := by
  have hnil : ∀ x ∈ atom.vars, x ∈ (∅ : Bindings) := by simp [h]
  have hground := Atom.bind_eq_ground hnil
  rw [Atom.bind_empty] at hground
  exact (Atom.ground_congr (by simp [h])).trans hground.symm

/-- A variable for a node is not one for a text. -/
lemma Term.Has.ne_of_takes {node text : Term} {v : String} {x : String}
    (hnode : node.Has g Γ .node) (htext : text.Takes g Γ (.text v)) (hx : text = .var x) :
    node ≠ .var x := by
  rintro rfl
  subst hx
  have hkind : Γ x = .node := hnode
  rw [Term.Takes, hkind] at htext
  exact htext

section Exact

variable {atom : Atom}

lemma answersExactly_node (h : g.Consistent) {predicate : String} {id type : Term}
    (hpredicate : predicate ∈ ["node", "type"]) (hid : id.Has g Γ .node)
    (hknown : id ≠ .anonymous)
    (htype : ∀ {i : NodeId} {node : Node} {t : String}, g.nodes[i]? = some node →
      node.type = some t → type.Takes g Γ (.text t))
    (hlabel : ∀ {x : String}, id = .var x → type.Has g Γ .label) :
    AnswersExactly (builtinAnswers g) (fun x => (Γ x).Admits g) ⟨predicate, [id, type]⟩ := by
  have hanswers : ∀ id type, builtinAnswers g ⟨predicate, [id, type]⟩ = nodeAnswers g id type := by
    intro id type
    simp only [List.mem_cons, List.not_mem_nil, or_false] at hpredicate
    obtain rfl | rfl := hpredicate <;> rfl
  refine answersExactly_of_lookup
    (fun p : Node × String => g.nodes[p.1.id]? = some p.1 ∧ p.1.type = some p.2)
    (fun p => [(id, .node p.1.id), (type, .text p.2)]) ?_ ?_ ?_
  · intro b hb s
    have hallows : ∀ {x : String} {v : Value}, b[x]? = some v → (Γ x).Allows g v.asText :=
      fun hx => (hb hx).allows
    have hanonymous : id.bind b ≠ .anonymous := fun hid => hknown (Term.bind_eq_anonymous hid)
    rw [Atom.bind, List.map_cons, List.map_cons, List.map_nil, hanswers,
      mem_nodeAnswers h hanonymous, Prod.exists]
    · rfl
    · intro x hx
      have hkind : Γ x = .node := by simpa [Term.Has, hx] using hid.bind hallows
      have hlabel' := (hlabel (Term.bind_eq_var hx)).bind hallows
      refine ⟨fun c hc => ?_, fun y hy => ?_⟩
      · rw [hc] at hlabel'
        exact hlabel' rfl
      · rw [hy] at hlabel'
        have hlabelKind : Γ y = .label := hlabel'
        refine ⟨fun hxy => ?_, fun hnode ht => ?_⟩
        · rw [hxy, hlabelKind] at hkind
          cases hkind
        · have htakes := htype hnode ht
          rw [Term.bind_eq_var hy, Term.Takes, hlabelKind] at htakes
          exact htakes
  · rintro ⟨node, t⟩ ⟨hnode, ht⟩ term v hterm
    simp only [List.mem_cons, Prod.mk.injEq, List.not_mem_nil, or_false] at hterm
    obtain ⟨rfl, rfl⟩ | ⟨rfl, rfl⟩ := hterm
    · exact hid.takes_node _
    · exact htype hnode ht
  · rintro ⟨node, t⟩ - x
    simp [Atom.mem_vars, exists_or]

/-- The atom of edges is answered exactly, in either direction. -/
lemma answersExactly_edges (h : g.Consistent) (incoming : Bool) {predicate : String}
    (hpredicate : predicate = if incoming then "incoming" else "edge") {anchor other : Term}
    {type : Option Term} (hready : incoming → ∃ c, anchor = .const c)
    (hanchor : anchor.Has g Γ .node) (hother : other.Has g Γ .node)
    (htype : ∀ edge ∈ g.allEdges, ∀ term ∈ type, term.Takes g Γ (.text (edge.type.getD "")))
    (htyped : (∃ c, anchor = .const c) ∨ (∀ term ∈ type, term.NotEmptyType) ∨
      ∀ edge ∈ g.allEdges, edge.type ≠ none) :
    AnswersExactly (builtinAnswers g) (fun x => (Γ x).Admits g)
      ⟨predicate, anchor :: other :: type.toList⟩ := by
  have hanswers : ∀ (anchor other : Term) (type : Option Term),
      builtinAnswers g ⟨predicate, anchor :: other :: type.toList⟩
        = edgeAnswers g incoming anchor other type := by
    intro anchor other type
    subst hpredicate
    cases incoming <;> cases type <;> rfl
  refine answersExactly_of_lookup (fun edge => edge ∈ g.allEdges)
    (fun edge => edgePairs incoming anchor other type edge) ?_ ?_ ?_
  · intro b hb s
    have hallows : ∀ {x : String} {v : Value}, b[x]? = some v → (Γ x).Allows g v.asText :=
      fun hx => (hb hx).allows
    have hpairs : ∀ edge, (edgePairs incoming anchor other type edge).map
          (fun p => (p.1.bind b, p.2))
        = edgePairs incoming (anchor.bind b) (other.bind b) (type.map (Term.bind b)) edge := by
      intro edge
      cases type <;> rfl
    simp only [hpairs]
    rw [Atom.bind, List.map_cons, List.map_cons, ← Option.toList_map, hanswers,
      mem_edgeAnswers h (fun hincoming => Term.bind_const (hready hincoming))
        (htyped.imp Term.bind_const
          (Or.imp_left (Term.forall_mem_map_bind Term.NotEmptyType.bind)))]
    intro edge hedge x hx
    have htakes : ∀ term ∈ type.map (Term.bind b),
        term.Takes g Γ (.text (edge.type.getD "")) :=
      Term.forall_mem_map_bind Term.Takes.bind (htype edge hedge)
    exact ⟨(hanchor.bind hallows).ne_of_takes (htakes _ hx) rfl,
      (hother.bind hallows).ne_of_takes (htakes _ hx) rfl⟩
  · intro edge hedge term v hterm
    simp only [edgePairs, List.mem_cons, Prod.mk.injEq, List.mem_map] at hterm
    obtain ⟨rfl, rfl⟩ | ⟨rfl, rfl⟩ | ⟨term, hterm, rfl, rfl⟩ := hterm
    · exact hanchor.takes_node _
    · exact hother.takes_node _
    · exact htype edge hedge term (Option.mem_toList.1 hterm)
  · intro edge hedge x
    simp [Atom.mem_vars, edgePairs, exists_or]

lemma answersExactly_path {source target : Term}
    (hready : (Atom.mk "path" [source, target]).IsReady) (htarget : target.Has g Γ .node) :
    AnswersExactly (builtinAnswers g) (fun x => (Γ x).Admits g) ⟨"path", [source, target]⟩ := by
  obtain ⟨c, rfl⟩ := hready.exists_const (by simp)
  refine answersExactly_of_lookup
    (fun id => id ∈ g.reach [.parse c] maxPathLength [] ∧ id ≠ .parse c)
    (fun id => [(target, .node id)]) (fun b _ s => ?_) (fun id _ term v hterm => ?_)
    fun id _ x => ?_
  · exact mem_pathAnswers
  · obtain ⟨rfl, rfl⟩ := Prod.mk.inj (List.mem_singleton.1 hterm)
    exact htarget.takes_node id
  · simp [Atom.mem_vars]

lemma answersExactly_attr {id name value : Term}
    (hready : (Atom.mk "attr" [id, name, value]).IsReady) (hname : name.var? = none)
    (hvalue : ∀ {i : NodeId} {node : Node} {c v : String}, g.nodes[i]? = some node →
      name = .const c → attribute? node c = some v → value.Takes g Γ (.text v)) :
    AnswersExactly (builtinAnswers g) (fun x => (Γ x).Admits g)
      ⟨"attr", [id, name, value]⟩ := by
  obtain ⟨c, rfl⟩ := hready.exists_const (by simp)
  refine answersExactly_of_lookup
    (fun v => ∃ n, name = .const n ∧ (g.node? (.parse c)).bind (attribute? · n) = some v)
    (fun v => [(value, .text v)]) (fun b _ s => ?_) (fun v hv term w hterm => ?_)
    fun v _ x => ?_
  · have hbind : name.bind b = name := Term.bind_of_var?_eq_none hname b
    change s ∈ attrAnswers g (.const c) (name.bind b) (value.bind b) ↔ _
    rw [hbind, mem_attrAnswers hname]
    rfl
  · obtain ⟨rfl, rfl⟩ := Prod.mk.inj (List.mem_singleton.1 hterm)
    obtain ⟨n, hn, hfound⟩ := hv
    obtain ⟨node, hnode, hattribute⟩ := Option.bind_eq_some_iff.1 hfound
    exact hvalue hnode hn hattribute
  · have hx : name ≠ .var x := by
      rintro rfl
      simp [Term.var?] at hname
    simp [Atom.mem_vars, hx.symm]

lemma mem_comparisonAnswers {holds : String → String → Bool} {args : List Term} {s : Bindings}
    (h : s ∈ comparisonAnswers holds args) : s = ∅ := by
  unfold comparisonAnswers at h
  split at h
  · split at h
    · exact List.mem_singleton.1 h
    · simp at h
  · simp at h

lemma answersExactly_comparison {predicate : String} {args : List Term}
    (hready : (Atom.mk predicate args).IsReady)
    (hpredicate : predicate ∈ ["neq", "starts_with", "not_starts_with", "string_contains"]) :
    AnswersExactly (builtinAnswers g) (fun x => (Γ x).Admits g) ⟨predicate, args⟩ := by
  have hvars := hready.vars_eq_nil hpredicate
  have hempty : ∀ s ∈ builtinAnswers g ⟨predicate, args⟩, s = ∅ := by
    intro s hs
    simp only [List.mem_cons, List.not_mem_nil, or_false] at hpredicate
    obtain rfl | rfl | rfl | rfl := hpredicate <;> exact mem_comparisonAnswers hs
  intro s
  rw [hvars, Bindings.assigns_nil_iff, Atom.ground_of_vars_eq_nil hvars]
  constructor
  · exact fun hs => ⟨hempty s hs, List.ne_nil_of_mem hs⟩
  · rintro ⟨rfl, hne⟩
    obtain ⟨s, hs⟩ := List.exists_mem_of_ne_nil _ hne
    exact hempty s hs ▸ hs

end Exact

/-- Every atom with a built-in predicate that respects the kinds of its variables is
answered exactly when it is asked. -/
theorem answersExactly_builtin (h : g.Consistent) {atom : Atom} (hfits : Fits g sig Γ atom)
    (hbuiltin : builtins.contains atom.predicate) (hready : atom.IsReady) :
    AnswersExactly (builtinAnswers g) (fun x => (Γ x).Admits g) atom := by
  cases hfits with
  | node hpredicate hid hknown htype hlabel =>
    exact answersExactly_node h hpredicate hid hknown htype hlabel
  | edge hsource htarget htype htyped =>
    exact answersExactly_edges h false rfl (by simp) hsource htarget htype htyped
  | incoming hsource htype =>
    obtain ⟨c, rfl⟩ := hready.exists_const (by simp)
    have hanchor : (Term.const c).Has g Γ .node := by simp [Term.Has, Kind.Allows]
    exact answersExactly_edges h true rfl (fun _ => ⟨c, rfl⟩) hanchor hsource htype
      (.inl ⟨c, rfl⟩)
  | path htarget => exact answersExactly_path hready htarget
  | attr hname hvalue => exact answersExactly_attr hready hname hvalue
  | comparison hpredicate => exact answersExactly_comparison hready hpredicate
  | unanswerable _ hnone =>
    intro s
    have hnever : builtinAnswers g atom = [] := Atom.bind_empty atom ▸ hnone ∅
    simp only [hnever, List.not_mem_nil, false_iff, not_and, not_not]
    intro hs
    rw [← Atom.bind_eq_ground fun x hx => (hs.covers x).2 hx, hnone]
  | derived hderived => exact absurd hbuiltin hderived

end CodeGraph.Rules
