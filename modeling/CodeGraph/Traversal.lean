import CodeGraph.NodeId
import Std.Data.ExtTreeSet

/-!
# Traversals

Breadth-first and depth-first walks over any neighbour function.  Both list each node
once and go at most a given number of steps from a start node.

* `Traversal.breadthFirst` works level by level;
* `Traversal.depthFirst` keeps a stack of nodes still to be entered, each with its depth.

A set of identifiers has at most `NodeId.bound` members (`Traversal.size_le`), so the
number of nodes not entered yet bounds the depth-first walk.
-/

namespace CodeGraph.Traversal

/-- The nodes met so far. -/
abbrev Seen := Std.ExtTreeSet NodeId

/-! ### There are only so many identifiers -/

/-- A strictly increasing list of numbers from `low` on, all below `high`, is no longer
than the distance. -/
theorem length_le_of_increasing {l : List Nat} {low high : Nat}
    (hsorted : l.Pairwise (· < ·)) (hbounds : ∀ n ∈ l, low ≤ n ∧ n < high) :
    l.length ≤ high - low := by
  induction l generalizing low with
  | nil => simp
  | cons n l ih =>
    have hn := hbounds n (by simp)
    have hrest := @ih (n + 1) (List.pairwise_cons.1 hsorted).2 fun m hm =>
      ⟨(List.pairwise_cons.1 hsorted).1 m hm, (hbounds m (by simp [hm])).2⟩
    simp only [List.length_cons]
    omega

/-- A set of identifiers is no larger than the number of identifiers. -/
theorem size_le (seen : Seen) : seen.size ≤ NodeId.bound := by
  have hordered : (seen.toList.map NodeId.toNat).Pairwise (· < ·) := by
    rw [List.pairwise_map]
    refine seen.ordered_toList.imp fun {a b} h => ?_
    exact Nat.compare_eq_lt.1 h
  have := @length_le_of_increasing _ 0 NodeId.bound hordered fun n hn => by
    obtain ⟨id, -, rfl⟩ := List.mem_map.1 hn
    exact ⟨Nat.zero_le _, id.toNat_lt⟩
  simpa using this

/-- Meeting a new node makes the set larger. -/
theorem size_insert_of_not_mem {seen : Seen} {id : NodeId} (h : id ∉ seen) :
    (seen.insert id).size = seen.size + 1 := by
  have hcontains : seen.contains id = false := by
    rw [← Bool.not_eq_true, ← Std.ExtTreeSet.mem_iff_contains]
    exact h
  simp [Std.ExtTreeSet.size_insert, hcontains]

/-! ### Breadth first -/

/-- The nodes of a list that were not met before, each once and in order, and the set of
nodes met so far. -/
def discover (seen : Seen) : List NodeId → List NodeId × Seen
  | [] => ([], seen)
  | id :: ids =>
    if id ∈ seen then discover seen ids
    else
      let (found, seen) := discover (seen.insert id) ids
      (id :: found, seen)

/-- The nodes met within `depth` steps from a level, level by level. -/
def levelsBelow (next : NodeId → List NodeId) :
    (depth : Nat) → (level : List NodeId) → Seen → List NodeId
  | 0, _, _ => []
  | depth + 1, level, seen =>
    match discover seen (level.flatMap next) with
    | ([], _) => []
    | (found, seen) => found ++ levelsBelow next depth found seen

/-- The nodes at most `maxDepth` steps away from a start node, nearest first. -/
def breadthFirst (start : List NodeId) (maxDepth : Nat) (next : NodeId → List NodeId) :
    List NodeId :=
  let (found, seen) := discover ∅ start
  found ++ levelsBelow next maxDepth found seen

/-! ### Depth first -/

/-- The walk that enters the nodes of a stack, top first.  A node not met before is
listed, and if it is not too deep its neighbours go on top of the stack. -/
def enterAll (next : NodeId → List NodeId) (maxDepth : Nat)
    (stack : List (NodeId × Nat)) (seen : Seen) : List NodeId :=
  match stack with
  | [] => []
  | (id, depth) :: stack =>
    if _hmet : id ∈ seen then enterAll next maxDepth stack seen
    else
      let seen' := seen.insert id
      let above :=
        if depth < maxDepth then
          ((next id).filter fun n => !seen'.contains n).map fun n => (n, depth + 1)
        else []
      id :: enterAll next maxDepth (above ++ stack) seen'
termination_by (NodeId.bound - seen.size, stack.length)
decreasing_by
  · exact Prod.Lex.right _ (by simp)
  · refine Prod.Lex.left _ _ ?_
    have hsize := size_insert_of_not_mem _hmet
    have hle := size_le (seen.insert id)
    omega

/-- The nodes entered by a depth-first walk, in the order in which they are entered. -/
def depthFirst (start : List NodeId) (maxDepth : Nat) (next : NodeId → List NodeId) :
    List NodeId :=
  enterAll next maxDepth (start.map fun id => (id, 0)) ∅

end CodeGraph.Traversal
