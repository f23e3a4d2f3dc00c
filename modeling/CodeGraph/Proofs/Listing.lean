import Mathlib
import Std.Data.ExtTreeMap
import Std.Data.ExtTreeSet

/-!
# Listings

A list that increases by some key is determined by its members
(`eq_of_increasing_of_mem_iff`).  Answers that come from sets and maps increase, so they are
compared by their members only.

`sorted` lists the members of a list in order, each once, and `tally` tells how often each
of them occurs.
-/

namespace CodeGraph

open Std (ExtTreeMap ExtTreeSet LawfulEqCmp)

variable {κ α : Type} [Ord κ]

/-- The keys of a list grow from each member to all later ones. -/
def IncreasingBy (key : α → κ) (l : List α) : Prop :=
  l.Pairwise fun a b => compare (key a) (key b) = .lt

lemma IncreasingBy.filter {key : α → κ} {l : List α} (h : IncreasingBy key l)
    (p : α → Bool) : IncreasingBy key (l.filter p) :=
  List.Pairwise.filter p h

/-- A list increases by a key when the list of keys increases. -/
lemma increasingBy_iff_map {key : α → κ} {l : List α} :
    IncreasingBy key l ↔ IncreasingBy id (l.map key) := by
  simp [IncreasingBy, List.pairwise_map]

variable [Std.TransOrd κ]

/-- Lists that increase by the same key are equal when they have the same members. -/
lemma eq_of_increasing_of_mem_iff {key : α → κ} {l l' : List α} (h : IncreasingBy key l)
    (h' : IncreasingBy key l') (hmem : ∀ a, a ∈ l ↔ a ∈ l') : l = l' := by
  have hirrefl : Std.Irrefl fun a b => compare (key a) (key b) = .lt :=
    ⟨fun a ha => by simp at ha⟩
  have hantisymm : Std.Antisymm fun a b => compare (key a) (key b) = .lt :=
    ⟨fun a b hab hba => by rw [Std.OrientedCmp.gt_of_lt hab] at hba; cases hba⟩
  exact h.eq_of_mem_iff h' hmem

/-- Nothing occurs twice in a list that increases. -/
lemma IncreasingBy.nodup {key : α → κ} {l : List α} (h : IncreasingBy key l) : l.Nodup := by
  refine List.Pairwise.imp (fun {a b} hlt => ?_) h
  rintro rfl
  simp at hlt

lemma increasing_toList (s : ExtTreeSet κ) : IncreasingBy id s.toList :=
  s.ordered_toList

lemma increasing_keys (m : ExtTreeMap κ α) : IncreasingBy id m.keys :=
  m.ordered_keys

lemma increasing_entries (m : ExtTreeMap κ α) : IncreasingBy Prod.fst m.toList :=
  m.ordered_keys_toList

/-- A set and a map with the same keys have the same size. -/
lemma size_eq_of_mem_iff {s : ExtTreeSet κ} {m : ExtTreeMap κ α} [Std.LawfulEqOrd κ]
    (h : ∀ key : κ, key ∈ s ↔ key ∈ m) : s.size = m.size := by
  have hlists : s.toList = m.keys := by
    refine eq_of_increasing_of_mem_iff (increasing_toList s) (increasing_keys m) fun key => ?_
    rw [ExtTreeSet.mem_toList, ExtTreeMap.mem_keys, h]
  rw [← ExtTreeSet.length_toList, hlists, ExtTreeMap.length_keys]

/-- Keys inserted in a set one after the other. -/
lemma mem_foldl_insert [Std.LawfulEqOrd κ] (keys : List κ) (s : ExtTreeSet κ) (key : κ) :
    key ∈ keys.foldl (·.insert ·) s ↔ key ∈ keys ∨ key ∈ s := by
  induction keys generalizing s with
  | nil => simp
  | cons first keys ih =>
    rw [List.foldl_cons, ih, ExtTreeSet.mem_insert, LawfulEqCmp.compare_eq_iff_eq, List.mem_cons]
    tauto

/-! ### Maps built from entries -/

/-- A map is rebuilt from the list of its entries. -/
lemma map_ofList_toList [Std.LawfulEqOrd κ] [DecidableEq κ] (m : ExtTreeMap κ α) :
    ExtTreeMap.ofList m.toList = m := by
  apply ExtTreeMap.ext_getElem?
  intro key
  cases hkey : m[key]? with
  | some value =>
    exact ExtTreeMap.getElem?_ofList_of_mem Std.ReflCmp.compare_self m.distinct_keys_toList
      (ExtTreeMap.mem_toList_iff_getElem?_eq_some.2 hkey)
  | none =>
    apply ExtTreeMap.getElem?_ofList_of_contains_eq_false
    rw [ExtTreeMap.map_fst_toList_eq_keys, ExtTreeMap.contains_keys, ← Bool.not_eq_true,
      ← ExtTreeMap.mem_iff_contains]
    simpa using hkey

/-- A map that is built from entries has no others. -/
lemma mem_of_mem_map_ofList [Std.LawfulEqOrd κ] [DecidableEq κ] {entries : List (κ × α)}
    {entry : κ × α} (h : entry ∈ (ExtTreeMap.ofList entries).toList) : entry ∈ entries := by
  obtain ⟨key, value⟩ := entry
  rw [ExtTreeMap.mem_toList_iff_getElem?_eq_some, ExtTreeMap.ofList_eq_foldl] at h
  have hfrom : ∀ (entries : List (κ × α)) (m : ExtTreeMap κ α),
      (entries.foldl (fun m entry => m.insert entry.1 entry.2) m)[key]? = some value →
        (key, value) ∈ entries ∨ m[key]? = some value := by
    intro entries
    induction entries with
    | nil => exact fun m hm => .inr hm
    | cons entry entries ih =>
      intro m hm
      rcases ih _ hm with hlater | hhere
      · exact .inl (List.mem_cons_of_mem _ hlater)
      · rw [ExtTreeMap.getElem?_insert] at hhere
        split at hhere
        · next heq =>
          obtain rfl := LawfulEqCmp.eq_of_compare heq
          obtain rfl := Option.some.inj hhere
          exact .inl List.mem_cons_self
        · exact .inr hhere
  simpa using hfrom entries ∅ h

/-! ### Sorted lists and counts -/

/-- The members of a list in increasing order, each once. -/
def sorted (l : List κ) : List κ :=
  (ExtTreeSet.ofList l).toList

lemma increasing_sorted (l : List κ) : IncreasingBy id (sorted l) :=
  increasing_toList _

@[simp] lemma mem_sorted [Std.LawfulEqOrd κ] [DecidableEq κ] {l : List κ} {k : κ} :
    k ∈ sorted l ↔ k ∈ l := by
  simp [sorted]

/-- How often each member of a list occurs, in the order of the members. -/
def tally [DecidableEq κ] (l : List κ) : List (κ × Nat) :=
  (sorted l).map fun k => (k, l.count k)

lemma increasing_tally [DecidableEq κ] (l : List κ) : IncreasingBy Prod.fst (tally l) := by
  rw [increasingBy_iff_map, tally, List.map_map]
  simpa [Function.comp_def] using increasing_sorted l

lemma mem_tally [Std.LawfulEqOrd κ] [DecidableEq κ] {l : List κ} {k : κ} {n : Nat} :
    (k, n) ∈ tally l ↔ k ∈ l ∧ l.count k = n := by
  simp [tally]

/-- Counting one member after the other in a map. -/
def countUp [DecidableEq κ] (l : List κ) (counts : ExtTreeMap κ Nat) : ExtTreeMap κ Nat :=
  l.foldl (fun counts k => counts.alter k fun n => some (n.getD 0 + 1)) counts

lemma getElem?_countUp [Std.LawfulEqOrd κ] [DecidableEq κ] (l : List κ)
    (counts : ExtTreeMap κ Nat) (k : κ) :
    (countUp l counts)[k]? =
      if k ∈ l then some (counts[k]?.getD 0 + l.count k) else counts[k]? := by
  induction l generalizing counts with
  | nil => simp [countUp]
  | cons a l ih =>
    have hstep := ih (counts.alter a fun n => some (n.getD 0 + 1))
    simp only [countUp, List.foldl_cons] at hstep ⊢
    rw [hstep, ExtTreeMap.getElem?_alter]
    by_cases ha : a = k
    · subst ha
      by_cases hk : a ∈ l
      · simp [hk]; omega
      · simp [hk, List.count_eq_zero_of_not_mem hk]
    · simp [ha, Ne.symm ha, List.mem_cons]

/-- Counting in an empty map gives the tally. -/
lemma toList_countUp [Std.LawfulEqOrd κ] [DecidableEq κ] (l : List κ) :
    (countUp l ∅).toList = tally l := by
  refine eq_of_increasing_of_mem_iff (increasing_entries _) (increasing_tally l) ?_
  rintro ⟨k, n⟩
  rw [ExtTreeMap.mem_toList_iff_getElem?_eq_some, getElem?_countUp, mem_tally]
  by_cases hk : k ∈ l <;> simp [hk]

end CodeGraph
