import Std.Data.ExtTreeMap
import Std.Data.ExtTreeSet

/-!
# Multimaps

A multimap takes each key to a set of values.  Removing the last value of a key removes
the key, so that two multimaps with the same pairs are equal.

* `Multimap.mem_values_add`, `Multimap.mem_values_remove` : the pairs after a change.
-/

namespace CodeGraph

open Std (TransOrd LawfulEqOrd LawfulEqCmp ExtTreeMap ExtTreeSet)

/-- A map from keys to sets of values. -/
abbrev Multimap (κ ι : Type) [Ord κ] [TransOrd κ] [Ord ι] [TransOrd ι] :=
  ExtTreeMap κ (ExtTreeSet ι)

namespace Multimap

variable {κ ι : Type} [Ord κ] [TransOrd κ] [Ord ι] [TransOrd ι]

/-- The values of a key; a key that is not there has none. -/
def values (m : Multimap κ ι) (key : κ) : ExtTreeSet ι :=
  m[key]?.getD ∅

/-- Adds a value to those of a key. -/
def add (m : Multimap κ ι) (key : κ) (value : ι) : Multimap κ ι :=
  m.insert key ((m.values key).insert value)

/-- Removes a value from those of a key, and the key with its last value. -/
def remove (m : Multimap κ ι) (key : κ) (value : ι) : Multimap κ ι :=
  let rest := (m.values key).erase value
  if rest.isEmpty then m.erase key else m.insert key rest

/-! ### The pairs after a change -/

theorem values_add [LawfulEqOrd κ] [DecidableEq κ] (m : Multimap κ ι) (key : κ) (value : ι)
    (k : κ) : (m.add key value).values k =
      if k = key then (m.values key).insert value else m.values k := by
  simp only [values, add, ExtTreeMap.getElem?_insert, LawfulEqCmp.compare_eq_iff_eq]
  by_cases h : key = k
  · simp [h]
  · have : ¬ k = key := fun h' => h h'.symm
    simp [h, this]

theorem values_remove [LawfulEqOrd κ] [DecidableEq κ] (m : Multimap κ ι) (key : κ)
    (value : ι) (k : κ) : (m.remove key value).values k =
      if k = key then (m.values key).erase value else m.values k := by
  have hflip : (key = k) = (k = key) := propext ⟨Eq.symm, Eq.symm⟩
  simp only [remove]
  split
  · next hempty =>
    simp only [values, ExtTreeMap.getElem?_erase, LawfulEqCmp.compare_eq_iff_eq, hflip]
    split
    · exact (ExtTreeSet.isEmpty_iff.1 hempty).symm
    · rfl
  · simp only [values, ExtTreeMap.getElem?_insert, LawfulEqCmp.compare_eq_iff_eq, hflip]
    split <;> rfl

/-- After an addition a key has its old values and the one added to it. -/
theorem mem_values_add [LawfulEqOrd κ] [LawfulEqOrd ι] [DecidableEq κ] (m : Multimap κ ι)
    (key : κ) (value : ι) (k : κ) (v : ι) :
    v ∈ (m.add key value).values k ↔ (k = key ∧ v = value) ∨ v ∈ m.values k := by
  rw [values_add]
  split
  · next h => subst h; simp [ExtTreeSet.mem_insert, eq_comm (a := value)]
  · next h => simp [h]

/-- After a removal a key has its old values without the one removed from it. -/
theorem mem_values_remove [LawfulEqOrd κ] [LawfulEqOrd ι] [DecidableEq κ]
    (m : Multimap κ ι) (key : κ) (value : ι) (k : κ) (v : ι) :
    v ∈ (m.remove key value).values k ↔ ¬ (k = key ∧ v = value) ∧ v ∈ m.values k := by
  rw [values_remove]
  split
  · next h =>
    subst h
    simp [ExtTreeSet.mem_erase, eq_comm (a := value)]
  · next h => simp [h]

end Multimap

end CodeGraph
