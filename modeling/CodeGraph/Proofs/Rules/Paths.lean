import Mathlib
import CodeGraph.Proofs.Graph.Reachability
import CodeGraph.Proofs.Rules.Derived

/-!
# Paths

A path leads along stored edges of any type, over at least one and at most `maxPathLength` of them
(`Graph.Leads`).  The answers to `path` come from a breadth-first walk, which lists its start
whether or not an edge leads back to it, so the start is taken out again.  What is left are the
ends of all paths that do not end where they begin (`mem_pathTargets`): on a cycle a node is an end
of its own paths, and there `path` misses exactly that one (`answers_path`).
-/

namespace CodeGraph

open Traversal (Walk)

/-! ### Where edges lead -/

namespace Graph

/-- Where the stored edges from a node lead. -/
def ends (g : Graph) (id : NodeId) : List NodeId :=
  (g.edgesWhere (·.src == id)).map Edge.dst

/-- A path of at least one and at most `maxPathLength` edges leads from one node to another. -/
def Leads (g : Graph) (a b : NodeId) : Prop :=
  ∃ n, 1 ≤ n ∧ n ≤ Rules.maxPathLength ∧ Walk g.ends n a b

variable {g : Graph}

lemma mem_ends (h : g.Consistent) {a b : NodeId} :
    b ∈ g.ends a ↔ ∃ edge : Edge, g.edges[edge.key]? = some edge ∧ edge.src = a ∧ edge.dst = b := by
  rw [ends, List.mem_map]
  simp only [h.mem_edgesWhere, beq_iff_eq, and_assoc]

/-- Without a list of types, edges of all types are followed. -/
lemma mem_neighbors_untyped (h : g.Consistent) {a b : NodeId} :
    b ∈ g.neighbors a [] ↔ b ∈ g.ends a := by
  rw [h.mem_neighbors_iff, mem_ends h, IsHop]
  simp [wantsType]

/-- What is reached from a node are the node itself and what paths from it lead to. -/
lemma mem_reach_iff (h : g.Consistent) {a b : NodeId} :
    b ∈ g.reach [a] Rules.maxPathLength [] ↔ b = a ∨ g.Leads a b := by
  have hforth : ∀ id, g.neighbors id [] ⊆ g.ends id := fun id _ => (mem_neighbors_untyped h).1
  have hback : ∀ id, g.ends id ⊆ g.neighbors id [] := fun id _ => (mem_neighbors_untyped h).2
  rw [mem_reach_singleton]
  constructor
  · rintro ⟨n, hn, hwalk⟩
    cases hwalk with
    | stay => exact .inl rfl
    | @hop n _ _ _ hbefore hlast =>
      exact .inr ⟨n + 1, Nat.le_add_left 1 n, hn, (hbefore.hop hlast).mono hforth⟩
  · rintro (rfl | ⟨n, -, hn, hwalk⟩)
    · exact ⟨0, Nat.zero_le _, .stay b⟩
    · exact ⟨n, hn, hwalk.mono hback⟩

end Graph

namespace Rules

/-- The nodes that `path` finds from a source: what is reached from it, without itself. -/
def pathTargets (g : Graph) (source : NodeId) : List NodeId :=
  (g.reach [source] maxPathLength []).filter (· ≠ source)

variable {g : Graph} {source : NodeId}

lemma nodup_pathTargets (g : Graph) (source : NodeId) : (pathTargets g source).Nodup :=
  (Traversal.nodup_breadthFirst _ _ _).filter _

lemma mem_pathTargets (h : g.Consistent) {id : NodeId} :
    id ∈ pathTargets g source ↔ id ≠ source ∧ g.Leads source id := by
  rw [pathTargets, List.mem_filter, decide_eq_true_eq, Graph.mem_reach_iff h, and_comm]
  apply and_congr_right
  intro hne
  exact or_iff_right hne

/-- The source is the only node that can be missing, and it is where a cycle leads back to it. -/
lemma pathTargets_complete_iff (h : g.Consistent) :
    (∀ id, id ∈ pathTargets g source ↔ g.Leads source id) ↔ ¬ g.Leads source source := by
  constructor
  · intro hall hcycle
    have hself : source ∈ pathTargets g source := (hall source).2 hcycle
    exact ((mem_pathTargets h).1 hself).1 rfl
  · intro hacyclic id
    rw [mem_pathTargets h]
    apply and_iff_right_of_imp
    rintro hleads rfl
    exact hacyclic hleads

/-- In every reachable graph, `path` binds its second term to the nodes that paths of at most
`maxPathLength` edges of any type lead to from the node that its first term names, each once, but
never to that node itself.  A constant is found exactly if it names one of them, and `_` exactly if
there is one.  They are all the nodes that the paths lead to exactly if none of them leads back. -/
theorem answers_path {g : Graph} (h : Graph.Reachable g) (program : List Rule) (depth : Nat)
    (a : String) :
    let asked (target : Term) := answers g program depth ⟨"path", [.const a, target]⟩
    ∃ ids : List NodeId, ids.Nodup ∧
      (∀ id, id ∈ ids ↔ id ≠ .parse a ∧ g.Leads (.parse a) id) ∧
      (∀ y, asked (.var y) = ids.map fun id => .single y (.node id)) ∧
      (∀ b, asked (.const b) = if NodeId.parse b ∈ ids then [∅] else []) ∧
      (asked .anonymous = if ids = [] then [] else [∅]) ∧
      ((∀ id, id ∈ ids ↔ g.Leads (.parse a) id) ↔ ¬ g.Leads (.parse a) (.parse a)) := by
  intro asked
  have hg : g.Consistent := h.consistent
  have hasked : ∀ target, asked target = pathAnswers g (.const a) target :=
    fun target => answers_of_builtin (by simp [builtins])
  refine ⟨pathTargets g (.parse a), nodup_pathTargets g _, fun id => mem_pathTargets hg,
    fun y => hasked _, ?_, ?_, pathTargets_complete_iff hg⟩
  · intro b
    rw [hasked]
    exact if_congr List.contains_iff_mem rfl rfl
  · rw [hasked]
    exact if_congr List.isEmpty_iff rfl rfl

/-- Two nodes that lead to each other. -/
def ring : Graph :=
  Graph.ephemeral.performAll [
    .addNodes [Graph.bareNode 1 none, Graph.bareNode 2 none],
    .addEdges [⟨.ofNat 1, .ofNat 2, none, none⟩, ⟨.ofNat 2, .ofNat 1, none, none⟩] false]

lemma ring_reachable : Graph.Reachable ring :=
  Graph.Reachable.ephemeral.performAll _

/-- From one of two nodes that lead to each other, `path` finds the other one. -/
theorem answers_path_ring :
    answers ring [] 0 ⟨"path", [.const "1", .var "Y"]⟩ = [.single "Y" (.node (.ofNat 2))] ∧
      ∃ ids : List NodeId, (∀ id, id ∈ ids ↔ id ≠ .parse "1" ∧ ring.Leads (.parse "1") id) ∧
        answers ring [] 0 ⟨"path", [.const "1", .var "Y"]⟩ =
          ids.map fun id => .single "Y" (.node id) := by
  obtain ⟨ids, -, hmem, hvar, -⟩ := answers_path ring_reachable [] 0 "1"
  refine ⟨?_, ids, hmem, hvar "Y"⟩
  decide +kernel

/-- Two edges lead from a node back to itself, but `path` does not find it. -/
theorem path_never_leads_back :
    ring.Leads (.parse "1") (.parse "1") ∧
      .single "Y" (.node (.parse "1")) ∉
        answers ring [] 0 ⟨"path", [.const "1", .var "Y"]⟩ ∧
      answers ring [] 0 ⟨"path", [.const "1", .const "1"]⟩ = [] := by
  have hforth : NodeId.ofNat 2 ∈ ring.ends (.parse "1") := by decide +kernel
  have hback : NodeId.parse "1" ∈ ring.ends (.ofNat 2) := by decide +kernel
  refine ⟨⟨2, ?_, ?_, ?_⟩, ?_, ?_⟩
  · decide
  · decide
  · exact .hop (.hop (.stay _) hforth) hback
  · decide +kernel
  · decide +kernel

end Rules

end CodeGraph
