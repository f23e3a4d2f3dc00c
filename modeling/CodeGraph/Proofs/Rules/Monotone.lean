import Mathlib
import CodeGraph.Proofs.Graph.Reachability
import CodeGraph.Proofs.Rules.Derivation
import CodeGraph.Proofs.Rules.Reading

/-!
# Answers are monotone

Without negative literals nothing is concluded from the lack of an answer.  So whoever has more
answers to single atoms has more answers to a conjunction (`askAll_subset`) and to a rule
(`ruleAnswers_subset`).  A graph that only gained edges has more answers to every built-in atom
(`builtinAnswers_subset`); with more rules beside it has more answers to every atom, by induction
on how deep derived predicates may nest (`answers_subset`).  The order in which literals are asked
depends on the literals alone, so a query or a body that cannot be scheduled stays so.
-/

namespace CodeGraph

/-! ### Graphs that gained edges -/

/-- One graph has the nodes of another one and at least its edges. -/
structure Graph.Gained (g g' : Graph) : Prop where
  nodes : g'.nodes = g.nodes
  byType : g'.index.byType = g.index.byType
  edges : ∀ {key : EdgeKey} {edge : Edge}, g.edges[key]? = some edge → g'.edges[key]? = some edge

namespace Graph

lemma Gained.refl (g : Graph) : g.Gained g := ⟨rfl, rfl, id⟩

/-- Adding edges under new keys leaves the nodes and the other edges alone. -/
lemma gained_addEdges {g : Graph} {edges : List Edge} (hnew : ∀ edge ∈ edges, edge.key ∉ g.edges)
    (skipValidation : Bool) : g.Gained (g.addEdges edges skipValidation) := by
  refine List.foldlRecOn _ addEdge (.refl g) fun g' hg' edge hedge => ⟨hg'.nodes, hg'.byType, ?_⟩
  have hmem : edge ∈ edges := by
    unfold admissible at hedge
    split at hedge
    · exact hedge
    · exact List.mem_of_mem_filter hedge
  intro key kept hkept
  have hne : edge.key ≠ key := by
    rintro rfl
    exact hnew edge hmem (Std.ExtTreeMap.mem_iff_isSome_getElem?.2 (by rw [hkept]; rfl))
  have hother : (g'.addEdge edge).edges[key]? = g'.edges[key]? := by
    rw [addEdge, Std.ExtTreeMap.getElem?_insert, if_neg (by simpa using hne)]
  rw [hother]
  exact hg'.edges hkept

variable {g g' : Graph}

namespace Gained

lemma node? (h : g.Gained g') (id : NodeId) : g'.node? id = g.node? id := by
  rw [Graph.node?, Graph.node?, h.nodes]

lemma findByType (h : g.Gained g') (pattern : String) :
    g'.findByType pattern = g.findByType pattern := by
  rw [Graph.findByType, Graph.findByType, h.byType]

lemma countNodes (h : g.Gained g') (patterns : Option (List String)) :
    g'.countNodes patterns = g.countNodes patterns := by
  rw [Graph.countNodes, Graph.countNodes, h.byType]

lemma allEdges_subset (h : g.Gained g') : g.allEdges ⊆ g'.allEdges := by
  intro edge hedge
  obtain ⟨⟨key, _⟩, hmem, rfl⟩ := List.mem_map.1 hedge
  have hkept := h.edges (Std.ExtTreeMap.mem_toList_iff_getElem?_eq_some.1 hmem)
  exact List.mem_map.2 ⟨_, Std.ExtTreeMap.mem_toList_iff_getElem?_eq_some.2 hkept, rfl⟩

lemma isHop (h : g.Gained g') {types : List String} {a b : NodeId} (hhop : g.IsHop types a b) :
    g'.IsHop types a b := by
  obtain ⟨edge, hedge, hends⟩ := hhop
  exact ⟨edge, h.edges hedge, hends⟩

/-- What is reached stays within reach. -/
lemma reach_subset (h : g.Gained g') (hg : g.Consistent) (hg' : g'.Consistent) (id : NodeId)
    (depth : Nat) (types : List String) : g.reach [id] depth types ⊆ g'.reach [id] depth types := by
  intro b hb
  obtain ⟨n, hn, hwalk⟩ := mem_reach_singleton.1 hb
  refine mem_reach_singleton.2 ⟨n, hn, hwalk.mono fun a b hnext => ?_⟩
  exact hg'.mem_neighbors_iff.2 (h.isHop (hg.mem_neighbors_iff.1 hnext))

end Gained

end Graph

namespace Rules

variable {g g' : Graph}

/-! ### Built-in predicates -/

lemma nodeAnswers_congr (h : g.Gained g') (id type : Term) :
    nodeAnswers g' id type = nodeAnswers g id type := by
  simp only [nodeAnswers, h.findByType, h.node?, h.countNodes]

lemma attrAnswers_congr (h : g.Gained g') (id name value : Term) :
    attrAnswers g' id name value = attrAnswers g id name value := by
  simp only [attrAnswers, h.node?]

lemma anchoredEdges_subset (h : g.Gained g') (hg : g.Consistent) (hg' : g'.Consistent)
    (incoming : Bool) (anchor : Term) (type : Option Term) :
    anchoredEdges g incoming anchor type ⊆ anchoredEdges g' incoming anchor type := by
  intro edge hedge
  by_cases hconst : ∃ c, anchor = .const c
  · obtain ⟨c, rfl⟩ := hconst
    obtain ⟨hmem, hends⟩ := (mem_anchoredEdges_const hg c).1 hedge
    exact (mem_anchoredEdges_const hg' c).2 ⟨h.allEdges_subset hmem, hends⟩
  · rw [anchoredEdges_eq] at hedge ⊢
    cases anchor with
    | const c => exact absurd ⟨c, rfl⟩ hconst
    | _ =>
      cases incoming with
      | true => simp at hedge
      | false =>
        obtain ⟨hmem, htype⟩ := List.mem_filter.1 hedge
        exact List.mem_filter.2 ⟨h.allEdges_subset hmem, htype⟩

lemma edgeAnswers_subset (h : g.Gained g') (hg : g.Consistent) (hg' : g'.Consistent)
    (incoming : Bool) (anchor other : Term) (type : Option Term) :
    edgeAnswers g incoming anchor other type ⊆ edgeAnswers g' incoming anchor other type :=
  List.filterMap_subset _ (anchoredEdges_subset h hg hg' incoming anchor type)

lemma pathAnswers_subset (h : g.Gained g') (hg : g.Consistent) (hg' : g'.Consistent)
    (source target : Term) : pathAnswers g source target ⊆ pathAnswers g' source target := by
  cases source with
  | const c =>
    intro s hs
    obtain ⟨id, ⟨hreach, hne⟩, hunify⟩ := mem_pathAnswers.1 hs
    have hreach' := h.reach_subset hg hg' (.parse c) maxPathLength [] hreach
    exact mem_pathAnswers.2 ⟨id, ⟨hreach', hne⟩, hunify⟩
  | var x => exact List.nil_subset _
  | anonymous => exact List.nil_subset _

/-- No built-in predicate loses answers to new edges. -/
lemma builtinAnswers_subset (h : g.Gained g') (hg : g.Consistent) (hg' : g'.Consistent)
    (atom : Atom) : builtinAnswers g atom ⊆ builtinAnswers g' atom := by
  unfold builtinAnswers
  split
  · rw [nodeAnswers_congr h]; exact List.Subset.refl _
  · rw [nodeAnswers_congr h]; exact List.Subset.refl _
  · exact edgeAnswers_subset h hg hg' false _ _ _
  · exact edgeAnswers_subset h hg hg' true _ _ _
  · exact pathAnswers_subset h hg hg' _ _
  · rw [attrAnswers_congr h]; exact List.Subset.refl _
  all_goals exact List.Subset.refl _

/-! ### Conjunctions and rules -/

/-- There is no negative literal. -/
def IsPositive (ls : List Literal) : Prop := ∀ l ∈ ls, l.isNegative = false

instance (ls : List Literal) : Decidable (IsPositive ls) :=
  inferInstanceAs (Decidable (∀ l ∈ ls, l.isNegative = false))

variable {answers answers' : Atom → List Bindings}

lemma ask_subset (h : ∀ atom, answers atom ⊆ answers' atom) {l : Literal}
    (hl : l.isNegative = false) (b : Bindings) : ask answers l b ⊆ ask answers' l b := by
  cases l with
  | positive atom => exact List.filterMap_subset _ (h _)
  | negative atom => simp [Literal.isNegative] at hl

lemma askAll_subset (h : ∀ atom, answers atom ⊆ answers' atom) {ls : List Literal}
    (hls : IsPositive ls) {current current' : List Bindings} (hcurrent : current ⊆ current') :
    askAll answers ls current ⊆ askAll answers' ls current' := by
  induction ls generalizing current current' with
  | nil => exact hcurrent
  | cons l ls ih =>
    obtain ⟨hl, hls⟩ := List.forall_mem_cons.1 hls
    refine ih hls fun r hr => ?_
    obtain ⟨b, hb, hr⟩ := List.mem_flatMap.1 hr
    exact List.mem_flatMap.2 ⟨b, hcurrent hb, ask_subset h hl b hr⟩

/-- A conjunction is refused or not, whatever the answers to its atoms are. -/
lemma exists_conjunction (h : ∀ atom, answers atom ⊆ answers' atom) {ls : List Literal}
    (hls : IsPositive ls) {found : List Bindings} (hfound : conjunction answers ls = .ok found) :
    ∃ found', conjunction answers' ls = .ok found' ∧ found ⊆ found' := by
  rw [conjunction] at hfound ⊢
  cases hordered : schedule ls with
  | error left =>
    rw [hordered] at hfound
    cases hfound
  | ok ordered =>
    rw [hordered] at hfound
    obtain rfl := Except.ok.inj hfound
    have hpositive : IsPositive ordered := fun l hl =>
      hls l ((schedule_eq_ok hordered).1.subset hl)
    exact ⟨_, rfl, askAll_subset h hpositive (List.Subset.refl _)⟩

lemma ruleAnswers_subset (h : ∀ atom, answers atom ⊆ answers' atom) {rule : Rule}
    (hrule : IsPositive rule.body) (goal : Atom) :
    ruleAnswers answers goal rule ⊆ ruleAnswers answers' goal rule := by
  have hbody : IsPositive (rule.body.map (Literal.map (Atom.bind (seed rule.head goal)))) := by
    refine List.forall_mem_map.2 fun l hl => ?_
    cases l with
    | positive atom => rfl
    | negative atom => exact absurd (hrule _ hl) (by simp [Literal.isNegative])
  unfold ruleAnswers
  dsimp only
  split_ifs with hfact
  · exact List.Subset.refl _
  · cases hfound : conjunction answers
        (rule.body.map (Literal.map (Atom.bind (seed rule.head goal)))) with
    | error left => exact List.nil_subset _
    | ok found =>
      obtain ⟨found', hfound', hsub⟩ := exists_conjunction h hbody hfound
      rw [hfound']
      exact List.filterMap_subset _ hsub

/-! ### All predicates -/

/-- More edges and more rules give more answers, however deep predicates may nest. -/
lemma answers_subset (h : g.Gained g') (hg : g.Consistent) (hg' : g'.Consistent)
    {program : List Rule} (hprogram : ∀ rule ∈ program, IsPositive rule.body) (more : List Rule)
    (depth : Nat) (goal : Atom) :
    Rules.answers g program depth goal ⊆ Rules.answers g' (program ++ more) depth goal := by
  have hbuiltin (depth : Nat) {goal : Atom} (hgoal : builtins.contains goal.predicate) :
      Rules.answers g program depth goal ⊆ Rules.answers g' (program ++ more) depth goal := by
    rw [answers_of_builtin hgoal, answers_of_builtin hgoal]
    exact builtinAnswers_subset h hg hg' goal
  induction depth generalizing goal with
  | zero =>
    by_cases hgoal : builtins.contains goal.predicate
    · exact hbuiltin 0 hgoal
    · rw [answers_zero_of_derived hgoal]
      exact List.nil_subset _
  | succ depth ih =>
    by_cases hgoal : builtins.contains goal.predicate
    · exact hbuiltin (depth + 1) hgoal
    · intro s hs
      obtain ⟨rule, hrule, hpredicate, hs⟩ := (mem_answers_succ_of_derived hgoal).1 hs
      exact (mem_answers_succ_of_derived hgoal).2 ⟨rule, List.mem_append_left more hrule,
        hpredicate, ruleAnswers_subset ih (hprogram rule hrule) goal hs⟩

/-- In every reachable graph, adding edges under new keys keeps all answers to a query without
negative literals under rules without negative literals, and so does adding rules of any kind
behind them. -/
theorem queryAnswers_mono (hg : Graph.Reachable g) {edges : List Edge}
    (hnew : ∀ edge ∈ edges, edge.key ∉ g.edges) (skipValidation : Bool) {program : List Rule}
    (hprogram : ∀ rule ∈ program, IsPositive rule.body) (more : List Rule) {ls : List Literal}
    (hls : IsPositive ls) {found : List Bindings} (hfound : queryAnswers g program ls = .ok found) :
    ∃ found', queryAnswers (g.addEdges edges skipValidation) (program ++ more) ls = .ok found' ∧
      ∀ b ∈ found, b ∈ found' := by
  have hconsistent := hg.consistent
  obtain ⟨ordered, hordered, rfl⟩ := queryAnswers_eq_ok.1 hfound
  have hpositive : IsPositive ordered := fun l hl => hls l ((schedule_eq_ok hordered).1.subset hl)
  refine ⟨_, queryAnswers_eq_ok.2 ⟨ordered, hordered, rfl⟩, ?_⟩
  have hmore := answers_subset (Graph.gained_addEdges hnew skipValidation) hconsistent
    (hconsistent.addEdges edges skipValidation) hprogram more maxNesting
  exact askAll_subset hmore hpositive (List.Subset.refl _)

/-- What was reached before is reached when an edge closes a cycle and every node reaches
itself. -/
theorem queryAnswers_mono_threeInARow : Graph.Reachable threeInARow ∧ ∃ found',
    queryAnswers (threeInARow.addEdges [⟨.ofNat 3, .ofNat 1, some "calls", none⟩] true)
      (reachRules ++ [⟨⟨"reach", [.var "X", .var "X"]⟩,
        [.positive ⟨"node", [.var "X", .anonymous]⟩]⟩])
      [.positive ⟨"reach", [.const "1", .var "Z"]⟩] = .ok found' ∧
    ∀ b ∈ [Bindings.single "Z" (.node (.ofNat 2)), .single "Z" (.node (.ofNat 3))],
      b ∈ found' := by
  have hreach : Graph.Reachable threeInARow := Graph.Reachable.ephemeral.performAll _
  exact ⟨hreach, queryAnswers_mono hreach (by decide +kernel) true (by decide +kernel) _
    (by decide +kernel) (by decide +kernel)⟩

end Rules

end CodeGraph
