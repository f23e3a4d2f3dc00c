import Mathlib
import CodeGraph.Traversal

/-!
# What a traversal discovers

`discover` keeps the nodes of a list that were not met before: its result is a part of the
list in the same order (`discover_sublist`), without repetitions (`nodup_discover`), and
misses none (`mem_discover`).
-/

namespace CodeGraph.Traversal

lemma discover_sublist (seen : Seen) (ids : List NodeId) :
    (discover seen ids).1.Sublist ids := by
  induction ids generalizing seen with
  | nil => exact List.Sublist.slnil
  | cons id ids ih =>
    unfold discover
    split
    · exact (ih seen).cons id
    · exact (ih (seen.insert id)).cons_cons id

lemma mem_discover (seen : Seen) (ids : List NodeId) (id : NodeId) :
    id ∈ (discover seen ids).1 ↔ id ∈ ids ∧ id ∉ seen := by
  induction ids generalizing seen with
  | nil => simp [discover]
  | cons first ids ih =>
    unfold discover
    split
    · next hmet =>
      rw [ih, List.mem_cons]
      grind
    · next hnew =>
      simp only [List.mem_cons, ih, Std.ExtTreeSet.mem_insert,
        Std.LawfulEqCmp.compare_eq_iff_eq]
      grind

lemma nodup_discover (seen : Seen) (ids : List NodeId) : (discover seen ids).1.Nodup := by
  induction ids generalizing seen with
  | nil => exact List.nodup_nil
  | cons id ids ih =>
    unfold discover
    split
    · exact ih seen
    · refine List.nodup_cons.2 ⟨?_, ih _⟩
      simp [mem_discover]

end CodeGraph.Traversal
