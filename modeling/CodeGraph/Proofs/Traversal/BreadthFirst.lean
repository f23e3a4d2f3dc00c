import Mathlib
import CodeGraph.Proofs.Traversal

/-!
# Breadth first is nearest first

`hops next start id` is the least number of hops of a walk from one of the start nodes to a
node.  A level of a breadth-first walk consists of the nodes at one distance, and the nodes met
by then are those at most so far away (`Level`); each level gives the next one (`Level.succ`).
So the walk lists the nodes that are near enough, each once, and nearest first.

The walk goes level by level.  A walk that takes nodes with their depths from the front of a
queue and puts those that it meets at its end (`drain`) lists the same nodes in the same order
(`drain_level`), and it ends because a node comes into the queue at most once.
-/

namespace CodeGraph.Traversal

/-! ### Walks and distances -/

/-- There is a walk of so many hops from one node to another. -/
inductive Walk (next : NodeId → List NodeId) : Nat → NodeId → NodeId → Prop
  | stay (a : NodeId) : Walk next 0 a a
  | hop {n : Nat} {a b c : NodeId} (h : Walk next n a b) (hnext : c ∈ next b) :
      Walk next (n + 1) a c

/-- The least number of hops from one of some nodes to a node, `⊤` where no walk leads. -/
noncomputable def hops (next : NodeId → List NodeId) (start : List NodeId) (id : NodeId) : ℕ∞ :=
  ⨅ (n : ℕ) (_ : ∃ s ∈ start, Walk next n s id), (n : ℕ∞)

section Hops

variable {next prev : NodeId → List NodeId} {start : List NodeId}

/-- A walk can begin with one more hop. -/
lemma Walk.after_hop {n : Nat} {a b c : NodeId} (h : Walk next n b c) (hnext : b ∈ next a) :
    Walk next (n + 1) a c := by
  induction h with
  | stay b => exact .hop (.stay a) hnext
  | hop _ hlast ih => exact .hop (ih hnext) hlast

/-- More next nodes leave walks possible. -/
lemma Walk.mono {next' : NodeId → List NodeId} (hnext : ∀ a, next a ⊆ next' a) {n : Nat}
    {a b : NodeId} (h : Walk next n a b) : Walk next' n a b := by
  induction h with
  | stay a => exact .stay a
  | hop _ hlast ih => exact .hop ih (hnext _ hlast)

/-- A walk can be gone in the other direction. -/
lemma Walk.reverse (hback : ∀ a b, b ∈ next a → a ∈ prev b) {n : Nat} {a b : NodeId}
    (h : Walk next n a b) : Walk prev n b a := by
  induction h with
  | stay a => exact .stay a
  | hop _ hlast ih => exact ih.after_hop (hback _ _ hlast)

lemma hops_le_iff {id : NodeId} {d : Nat} :
    hops next start id ≤ d ↔ ∃ n ≤ d, ∃ s ∈ start, Walk next n s id := by
  constructor
  · intro hle
    by_contra hfar
    have hbeyond : ((d + 1 : ℕ) : ℕ∞) ≤ hops next start id := by
      refine le_iInf₂ fun n hwalk => ?_
      have hn : d < n := by
        by_contra hnear
        exact hfar ⟨n, by omega, hwalk⟩
      exact Nat.cast_le.2 hn
    have hfalse : d + 1 ≤ d := Nat.cast_le.1 (hbeyond.trans hle)
    omega
  · rintro ⟨n, hn, hwalk⟩
    calc hops next start id ≤ (n : ℕ∞) := iInf₂_le n hwalk
      _ ≤ (d : ℕ∞) := Nat.cast_le.2 hn

/-- A node is at a distance exactly if it can be reached so far and not nearer. -/
lemma hops_eq_succ_iff {id : NodeId} {d : Nat} :
    hops next start id = (d + 1 : ℕ) ↔
      hops next start id ≤ (d + 1 : ℕ) ∧ ¬ hops next start id ≤ d := by
  constructor
  · intro heq
    refine ⟨heq.le, fun hle => ?_⟩
    rw [heq] at hle
    have hfalse : d + 1 ≤ d := Nat.cast_le.1 hle
    omega
  · rintro ⟨hle, hfar⟩
    refine le_antisymm hle ?_
    rw [Nat.cast_add, Nat.cast_one]
    exact Order.add_one_le_of_lt (not_le.1 hfar)

lemma hops_eq_zero_iff {id : NodeId} : hops next start id = (0 : ℕ) ↔ id ∈ start := by
  have hzero : hops next start id = (0 : ℕ) ↔ hops next start id ≤ (0 : ℕ) := by
    rw [Nat.cast_zero, nonpos_iff_eq_zero]
  rw [hzero, hops_le_iff]
  constructor
  · rintro ⟨n, hn, s, hs, hwalk⟩
    obtain rfl : n = 0 := by omega
    cases hwalk
    exact hs
  · exact fun hstart => ⟨0, le_rfl, id, hstart, .stay id⟩

/-- What is at most one hop farther than `d` is at most `d` away, or one hop from a node at
distance `d`. -/
lemma hops_le_succ_iff {id : NodeId} {d : Nat} : hops next start id ≤ (d + 1 : ℕ) ↔
    hops next start id ≤ d ∨ ∃ a, hops next start a = d ∧ id ∈ next a := by
  constructor
  · intro hle
    by_cases hnear : hops next start id ≤ d
    · exact .inl hnear
    · obtain ⟨n, hn, s, hs, hwalk⟩ := hops_le_iff.1 hle
      cases hwalk with
      | stay => exact absurd (hops_le_iff.2 ⟨0, Nat.zero_le d, _, hs, .stay _⟩) hnear
      | @hop n _ a _ hbefore hlast =>
        have hreach : hops next start a ≤ d := hops_le_iff.2 ⟨n, by omega, s, hs, hbefore⟩
        refine .inr ⟨a, le_antisymm hreach ?_, hlast⟩
        -- Were the node before it nearer, so would be the node itself.
        by_contra hnearer
        obtain ⟨m, hm⟩ := ENat.ne_top_iff_exists.1
          (ne_top_of_le_ne_top (ENat.natCast_ne_top d) hreach)
        rw [← hm, not_le, Nat.cast_lt] at hnearer
        obtain ⟨k, hk, s', hs', hshort⟩ := hops_le_iff.1 hm.symm.le
        exact hnear (hops_le_iff.2 ⟨k + 1, by omega, s', hs', hshort.hop hlast⟩)
  · rintro (hnear | ⟨a, ha, hnext⟩)
    · exact hnear.trans (Nat.cast_le.2 (Nat.le_succ d))
    · obtain ⟨n, hn, s, hs, hwalk⟩ := hops_le_iff.1 ha.le
      exact hops_le_iff.2 ⟨n + 1, by omega, s, hs, hwalk.hop hnext⟩

end Hops

/-! ### More about what is discovered -/

lemma discover_cons_of_mem {seen : Seen} {id : NodeId} (h : id ∈ seen) (ids : List NodeId) :
    discover seen (id :: ids) = discover seen ids := by
  rw [discover, if_pos h]

lemma discover_cons_of_not_mem {seen : Seen} {id : NodeId} (h : id ∉ seen) (ids : List NodeId) :
    discover seen (id :: ids)
      = (id :: (discover (seen.insert id) ids).1, (discover (seen.insert id) ids).2) := by
  rw [discover, if_neg h]

lemma mem_seen_discover (seen : Seen) (ids : List NodeId) (id : NodeId) :
    id ∈ (discover seen ids).2 ↔ id ∈ seen ∨ id ∈ ids := by
  induction ids generalizing seen with
  | nil => simp [discover]
  | cons first ids ih =>
    by_cases hmet : first ∈ seen
    · rw [discover_cons_of_mem hmet, ih, List.mem_cons]
      grind
    · rw [discover_cons_of_not_mem hmet, ih, List.mem_cons, Std.ExtTreeSet.mem_insert,
        Std.LawfulEqCmp.compare_eq_iff_eq, eq_comm (a := first), or_assoc, or_left_comm]

lemma size_seen_discover (seen : Seen) (ids : List NodeId) :
    (discover seen ids).2.size = seen.size + (discover seen ids).1.length := by
  induction ids generalizing seen with
  | nil => rfl
  | cons first ids ih =>
    by_cases hmet : first ∈ seen
    · rw [discover_cons_of_mem hmet, ih]
    · rw [discover_cons_of_not_mem hmet, ih, size_insert_of_not_mem hmet, List.length_cons]
      omega

lemma discover_append (seen : Seen) (ids later : List NodeId) :
    discover seen (ids ++ later)
      = ((discover seen ids).1 ++ (discover (discover seen ids).2 later).1,
          (discover (discover seen ids).2 later).2) := by
  induction ids generalizing seen with
  | nil => rfl
  | cons first ids ih =>
    rw [List.cons_append]
    by_cases hmet : first ∈ seen
    · rw [discover_cons_of_mem hmet, discover_cons_of_mem hmet, ih]
    · rw [discover_cons_of_not_mem hmet, discover_cons_of_not_mem hmet, ih, List.cons_append]

/-- The nodes discovered are those not met before, each where it stands first. -/
lemma discover_eq_eraseDups (seen : Seen) (ids : List NodeId) :
    (discover seen ids).1 = (ids.filter (· ∉ seen)).eraseDups := by
  induction ids generalizing seen with
  | nil => rfl
  | cons first ids ih =>
    by_cases hmet : first ∈ seen
    · rw [discover_cons_of_mem hmet, ih, List.filter_cons_of_neg (by simpa using hmet)]
    · have hlater : ids.filter (· ∉ seen.insert first)
          = (ids.filter (· ∉ seen)).filter fun id => !id == first := by
        rw [List.filter_filter]
        refine List.filter_congr fun id _ => ?_
        rw [Bool.eq_iff_iff]
        simp [Std.ExtTreeSet.mem_insert, eq_comm (a := first)]
      rw [discover_cons_of_not_mem hmet, List.filter_cons_of_pos (by simpa using hmet),
        List.eraseDups_cons, ← hlater, ih]

/-! ### Level by level -/

section Levels

variable {next : NodeId → List NodeId} {start : List NodeId}

/-- A level of a walk: the nodes at a distance, where those at most so far away have been met. -/
structure Level (next : NodeId → List NodeId) (start : List NodeId) (d : Nat)
    (level : List NodeId) (seen : Seen) : Prop where
  nodup : level.Nodup
  mem_iff : ∀ id, id ∈ level ↔ hops next start id = d
  seen_iff : ∀ id, id ∈ seen ↔ hops next start id ≤ d

lemma level_start : Level next start 0 (discover ∅ start).1 (discover ∅ start).2 where
  nodup := nodup_discover ∅ start
  mem_iff id := by rw [mem_discover, hops_eq_zero_iff]; simp
  seen_iff id := by
    rw [mem_seen_discover, Nat.cast_zero, nonpos_iff_eq_zero, ← Nat.cast_zero, hops_eq_zero_iff]
    simp

/-- The nodes discovered from a level are the next level. -/
lemma Level.succ {d : Nat} {level : List NodeId} {seen : Seen}
    (h : Level next start d level seen) :
    Level next start (d + 1) (discover seen (level.flatMap next)).1
      (discover seen (level.flatMap next)).2 := by
  have hnear : ∀ id, hops next start id ≤ (d + 1 : ℕ) ↔ id ∈ seen ∨ id ∈ level.flatMap next := by
    intro id
    rw [hops_le_succ_iff, h.seen_iff, List.mem_flatMap]
    simp only [h.mem_iff]
  refine ⟨nodup_discover _ _, fun id => ?_, fun id => ?_⟩
  · rw [mem_discover, hops_eq_succ_iff, hnear, ← h.seen_iff]
    tauto
  · rw [mem_seen_discover, hnear]

/-- Nothing is met from a level without nodes. -/
lemma levelsBelow_nil (next : NodeId → List NodeId) (depth : Nat) (seen : Seen) :
    levelsBelow next depth [] seen = [] := by
  cases depth <;> rfl

lemma levelsBelow_succ (next : NodeId → List NodeId) (depth : Nat) (level : List NodeId)
    (seen : Seen) : levelsBelow next (depth + 1) level seen
      = (discover seen (level.flatMap next)).1 ++
        levelsBelow next depth (discover seen (level.flatMap next)).1
          (discover seen (level.flatMap next)).2 := by
  rw [levelsBelow]
  split
  · next heq => rw [heq, levelsBelow_nil, List.append_nil]
  · next heq => rw [heq]

namespace Level

variable {d : Nat} {level : List NodeId} {seen : Seen}

/-- A level and those below it consist of the nodes from its distance on, up to the depth. -/
lemma mem_append_levelsBelow (h : Level next start d level seen) (depth : Nat) (id : NodeId) :
    id ∈ level ++ levelsBelow next depth level seen ↔
      d ≤ hops next start id ∧ hops next start id ≤ (d + depth : ℕ) := by
  induction depth generalizing d level seen with
  | zero =>
    rw [levelsBelow, List.append_nil, h.mem_iff, Nat.add_zero, le_antisymm_iff]
    tauto
  | succ depth ih =>
    have hfarther : (d : ℕ∞) ≤ hops next start id ↔
        hops next start id = d ∨ (d + 1 : ℕ) ≤ hops next start id := by
      rw [le_iff_eq_or_lt, eq_comm, Nat.cast_add, Nat.cast_one,
        ENat.add_one_le_iff (ENat.natCast_ne_top d)]
    have hhere : hops next start id = d → hops next start id ≤ (d + 1 + depth : ℕ) :=
      fun heq => heq.trans_le (Nat.cast_le.2 (by omega))
    have hsum : d + (depth + 1) = d + 1 + depth := by omega
    rw [levelsBelow_succ, List.mem_append, ih h.succ, h.mem_iff, hfarther, hsum]
    tauto

lemma nodup_append_levelsBelow (h : Level next start d level seen) (depth : Nat) :
    (level ++ levelsBelow next depth level seen).Nodup := by
  induction depth generalizing d level seen with
  | zero =>
    rw [levelsBelow, List.append_nil]
    exact h.nodup
  | succ depth ih =>
    rw [levelsBelow_succ]
    refine h.nodup.append (ih h.succ) fun id hhere hlater => ?_
    have hfar := ((h.succ.mem_append_levelsBelow depth id).1 hlater).1
    rw [(h.mem_iff id).1 hhere, Nat.cast_le] at hfar
    omega

lemma pairwise (h : Level next start d level seen) :
    level.Pairwise fun a b => hops next start a ≤ hops next start b := by
  refine List.pairwise_of_forall_mem_list fun a ha b hb => ?_
  rw [(h.mem_iff a).1 ha, (h.mem_iff b).1 hb]

lemma pairwise_append_levelsBelow (h : Level next start d level seen) (depth : Nat) :
    (level ++ levelsBelow next depth level seen).Pairwise
      fun a b => hops next start a ≤ hops next start b := by
  induction depth generalizing d level seen with
  | zero =>
    rw [levelsBelow, List.append_nil]
    exact h.pairwise
  | succ depth ih =>
    rw [levelsBelow_succ, List.pairwise_append]
    refine ⟨h.pairwise, ih h.succ, fun a ha b hb => ?_⟩
    rw [(h.mem_iff a).1 ha]
    have hfar := ((h.succ.mem_append_levelsBelow depth b).1 hb).1
    exact (Nat.cast_le.2 (Nat.le_succ d)).trans hfar

end Level

lemma breadthFirst_eq (start : List NodeId) (maxDepth : Nat) (next : NodeId → List NodeId) :
    breadthFirst start maxDepth next = (discover ∅ start).1 ++
      levelsBelow next maxDepth (discover ∅ start).1 (discover ∅ start).2 :=
  rfl

/-- A breadth-first walk lists no node twice. -/
lemma nodup_breadthFirst (start : List NodeId) (maxDepth : Nat) (next : NodeId → List NodeId) :
    (breadthFirst start maxDepth next).Nodup := by
  rw [breadthFirst_eq]
  exact level_start.nodup_append_levelsBelow maxDepth

/-- A breadth-first walk lists the nodes that are near enough. -/
lemma mem_breadthFirst {maxDepth : Nat} {id : NodeId} :
    id ∈ breadthFirst start maxDepth next ↔ hops next start id ≤ maxDepth := by
  rw [breadthFirst_eq, level_start.mem_append_levelsBelow, Nat.zero_add, Nat.cast_zero,
    and_iff_right (zero_le)]

end Levels

/-! ### With a queue -/

/-- The nodes met by a walk that takes nodes with their depths from the front of a queue and
puts the nodes that it meets at the end. -/
def drain (next : NodeId → List NodeId) (maxDepth : Nat) (queue : List (NodeId × Nat))
    (seen : Seen) : List NodeId :=
  match queue with
  | [] => []
  | (id, depth) :: queue =>
    if depth < maxDepth then
      let met := discover seen (next id)
      met.1 ++ drain next maxDepth (queue ++ met.1.map fun n => (n, depth + 1)) met.2
    else drain next maxDepth queue seen
termination_by NodeId.bound - seen.size + queue.length
decreasing_by
  -- Every node that comes into the queue is one that was not met before.
  · have hsize := size_seen_discover seen (next id)
    have hbound := size_le (discover seen (next id)).2
    simp only [List.length_append, List.length_map, List.length_cons]
    omega
  · simp only [List.length_cons]
    omega

/-- The nodes at most `maxDepth` steps away from a start node, by a walk with a queue. -/
def queued (start : List NodeId) (maxDepth : Nat) (next : NodeId → List NodeId) : List NodeId :=
  let met := discover ∅ start
  met.1 ++ drain next maxDepth (met.1.map fun id => (id, 0)) met.2

/-- While nodes of one depth are at the front of the queue, the nodes met come behind those of
the next depth that are in it already. -/
lemma drain_append (next : NodeId → List NodeId) {maxDepth d : Nat} (hd : d < maxDepth)
    (level later : List NodeId) (seen : Seen) :
    drain next maxDepth
        ((level.map fun id => (id, d)) ++ later.map fun id => (id, d + 1)) seen
      = (discover seen (level.flatMap next)).1 ++ drain next maxDepth
          ((later ++ (discover seen (level.flatMap next)).1).map fun id => (id, d + 1))
          (discover seen (level.flatMap next)).2 := by
  induction level generalizing later seen with
  | nil => simp [discover]
  | cons id level ih =>
    rw [List.map_cons, List.cons_append, drain, if_pos hd, List.flatMap_cons, discover_append]
    dsimp only
    rw [List.append_assoc, ← List.map_append, ih, List.append_assoc, List.append_assoc]

/-- A queue of nodes of one depth gives the levels below them. -/
lemma drain_level (next : NodeId → List NodeId) {maxDepth d depth : Nat}
    (hdepth : d + depth = maxDepth) (level : List NodeId) (seen : Seen) :
    drain next maxDepth (level.map fun id => (id, d)) seen
      = levelsBelow next depth level seen := by
  induction depth generalizing d level seen with
  | zero =>
    induction level with
    | nil => simp [drain, levelsBelow]
    | cons id level ih =>
      rw [List.map_cons, drain, if_neg (by omega), ih]
      rfl
  | succ depth ih =>
    have hstep := drain_append next (by omega : d < maxDepth) level [] seen
    rw [List.map_nil, List.append_nil, List.nil_append] at hstep
    rw [hstep, levelsBelow_succ, ih (by omega)]

/-! ### What a breadth-first walk lists -/

/-- A breadth-first walk lists what the walk with a queue lists: exactly the nodes that the
least number of hops from a start node allows, none twice, the start nodes first in the order in
which they are given, and no node before one that is nearer. -/
theorem breadthFirst_exact (start : List NodeId) (maxDepth : Nat) (next : NodeId → List NodeId) :
    breadthFirst start maxDepth next = queued start maxDepth next ∧
      (breadthFirst start maxDepth next).Nodup ∧
      (∀ id, id ∈ breadthFirst start maxDepth next ↔ hops next start id ≤ maxDepth) ∧
      start.eraseDups <+: breadthFirst start maxDepth next ∧
      (breadthFirst start maxDepth next).Pairwise
        fun a b => hops next start a ≤ hops next start b := by
  have hfirst : Level next start 0 (discover ∅ start).1 (discover ∅ start).2 := level_start
  refine ⟨?_, ?_, fun _ => mem_breadthFirst, ?_, ?_⟩
  · rw [breadthFirst_eq, queued, drain_level next (Nat.zero_add maxDepth)]
  · exact hfirst.nodup_append_levelsBelow maxDepth
  · have hdistinct : (discover ∅ start).1 = start.eraseDups := by
      rw [discover_eq_eraseDups]
      simp
    rw [breadthFirst_eq, hdistinct]
    exact List.prefix_append _ _
  · exact hfirst.pairwise_append_levelsBelow maxDepth

end CodeGraph.Traversal
