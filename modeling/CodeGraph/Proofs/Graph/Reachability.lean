import Mathlib
import CodeGraph.Proofs.Graph.Query
import CodeGraph.Proofs.Traversal.BreadthFirst

/-!
# Reachability forwards and backwards

Going forwards, the next nodes are the ends of the edges that begin at a node, taken from one
index by the keys of the edges; going backwards they are the beginnings of the edges that end
there, taken from another by the edges themselves.  In a consistent graph both follow the same
hops (`IsHop`), so a walk in one direction is a walk in the other, and a node is reached from
another exactly if the other is reached from it going backwards.
-/

namespace CodeGraph.Graph

open Traversal (Walk hops_le_iff mem_breadthFirst)

/-- There is an edge of a wanted type from one node to another. -/
def IsHop (g : Graph) (types : List String) (a b : NodeId) : Prop :=
  ∃ edge : Edge, g.edges[edge.key]? = some edge ∧ edge.src = a ∧ edge.dst = b ∧
    wantsType (some types) edge.key.type = true

namespace Consistent

variable {g : Graph}

lemma mem_neighbors_iff (h : g.Consistent) {types : List String} {a b : NodeId} :
    b ∈ g.neighbors a types ↔ g.IsHop types a b := by
  rw [h.neighbors_eq, mem_sorted, List.mem_map]
  simp only [h.mem_edgesWhere, Bool.and_eq_true, beq_iff_eq, IsHop]
  constructor
  · rintro ⟨edge, ⟨hedge, hsrc, hwanted⟩, hdst⟩
    exact ⟨edge, hedge, hsrc, hdst, hwanted⟩
  · rintro ⟨edge, hedge, hsrc, hdst, hwanted⟩
    exact ⟨edge, ⟨hedge, hsrc, hwanted⟩, hdst⟩

lemma mem_sources_iff (h : g.Consistent) {types : List String} {a b : NodeId} :
    a ∈ (g.incomingEdges b (some types)).map Edge.src ↔ g.IsHop types a b := by
  rw [h.incomingEdges_eq, List.mem_map]
  simp only [h.mem_edgesWhere, Bool.and_eq_true, beq_iff_eq, IsHop]
  constructor
  · rintro ⟨edge, ⟨hedge, hdst, hwanted⟩, hsrc⟩
    exact ⟨edge, hedge, hsrc, hdst, hwanted⟩
  · rintro ⟨edge, hedge, hsrc, hdst, hwanted⟩
    exact ⟨edge, ⟨hedge, hdst, hwanted⟩, hsrc⟩

end Consistent

/-- From one node, a walk of few enough hops has to lead to what is reached. -/
lemma mem_reach_singleton {g : Graph} {x y : NodeId} {depth : Nat} {types : List String} :
    y ∈ g.reach [x] depth types ↔ ∃ n ≤ depth, Walk (g.neighbors · types) n x y := by
  rw [reach, mem_breadthFirst, hops_le_iff]
  simp

lemma mem_reachBackward_singleton {g : Graph} {x y : NodeId} {depth : Nat}
    {types : List String} : x ∈ g.reachBackward [y] depth types ↔
      ∃ n ≤ depth, Walk (fun id => (g.incomingEdges id (some types)).map Edge.src) n y x := by
  rw [reachBackward, mem_breadthFirst, hops_le_iff]
  simp

/-- In every reachable graph a node can be reached from another, stored or not, within some
depth and along edges of some types, exactly if going against these edges the other can be
reached from it within this depth. -/
theorem Reachable.mem_reachability_comm {g : Graph} (h : Reachable g) (x y : NodeId)
    (depth : Nat) (types : List String) :
    y ∈ g.reachability [x] depth types false ↔ x ∈ g.reachability [y] depth types true := by
  have hg : g.Consistent := h.consistent
  change y ∈ g.reach [x] depth types ↔ x ∈ g.reachBackward [y] depth types
  have hhop : ∀ a b, b ∈ g.neighbors a types ↔
      a ∈ (g.incomingEdges b (some types)).map Edge.src :=
    fun a b => hg.mem_neighbors_iff.trans hg.mem_sources_iff.symm
  rw [mem_reach_singleton, mem_reachBackward_singleton]
  constructor
  · rintro ⟨n, hn, hwalk⟩
    exact ⟨n, hn, hwalk.reverse fun a b hnext => (hhop a b).1 hnext⟩
  · rintro ⟨n, hn, hwalk⟩
    exact ⟨n, hn, hwalk.reverse fun b a hnext => (hhop a b).2 hnext⟩

/-- In the graph of `changesAndBack` the node `3` is not stored, but an edge leads from it to the
node `2`: so it is reached going backwards from there. -/
theorem mem_reachability_comm_changesAndBack :
    Reachable (ephemeral.performAll changesAndBack) ∧
      .ofNat 2 ∈ (ephemeral.performAll changesAndBack).reachability [.ofNat 3] 1 ["calls"]
        false ∧
      .ofNat 3 ∈ (ephemeral.performAll changesAndBack).reachability [.ofNat 2] 1 ["calls"]
        true := by
  have hreach := Reachable.ephemeral.performAll changesAndBack
  have hforward : .ofNat 2 ∈ (ephemeral.performAll changesAndBack).reachability [.ofNat 3] 1
      ["calls"] false := by decide +kernel
  exact ⟨hreach, hforward, (hreach.mem_reachability_comm _ _ _ _).1 hforward⟩

end CodeGraph.Graph
