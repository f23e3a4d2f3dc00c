import Mathlib
import CodeGraph.Proofs.Traversal.BreadthFirst
import CodeGraph.Proofs.Traversal.DepthFirst

/-!
# What the bound of a depth-first walk hides

A depth-first walk enters a node once, at the depth at which it happens to come to it, which need
not be its distance.  What it enters less deep than the bound it follows to all neighbours, but a
node entered just at the bound is a dead end, also if a shorter way leads to it; and once it has
been met, the shorter way is not gone any more.

So the walk lists nothing that is too far away, but it can miss nodes that are near enough.  It
misses none exactly if every node that is nearer than the bound, but was entered at the bound,
has no neighbour that is not listed anyhow (`depthFirst_misses_nothing_iff`).  In particular it
misses none if it lists no more nodes than the bound, for the depths at which nodes are entered
are less than their number (`depth_lt_of_mem_entries`).
-/

namespace CodeGraph.Traversal

variable {next : NodeId → List NodeId} {maxDepth : Nat} {start : List NodeId}

/-! ### Depths -/

/-- The nodes entered from a stack, with the depths at which they are. -/
def entries (next : NodeId → List NodeId) (maxDepth : Nat) (stack : List (NodeId × Nat))
    (seen : Seen) : List (NodeId × Nat) :=
  match stack with
  | [] => []
  | (id, depth) :: stack =>
    if _hmet : id ∈ seen then entries next maxDepth stack seen
    else (id, depth) ::
      entries next maxDepth (above next maxDepth depth id (seen.insert id) ++ stack)
        (seen.insert id)
termination_by (NodeId.bound - seen.size, stack.length)
decreasing_by
  · exact Prod.Lex.right _ (by simp)
  · refine Prod.Lex.left _ _ ?_
    have hsize := size_insert_of_not_mem _hmet
    have hle := size_le (seen.insert id)
    omega

lemma entries_of_mem {id : NodeId} {seen : Seen} (h : id ∈ seen) (depth : Nat)
    (stack : List (NodeId × Nat)) :
    entries next maxDepth ((id, depth) :: stack) seen = entries next maxDepth stack seen := by
  rw [entries, dif_pos h]

lemma entries_of_not_mem {id : NodeId} {seen : Seen} (h : id ∉ seen) (depth : Nat)
    (stack : List (NodeId × Nat)) :
    entries next maxDepth ((id, depth) :: stack) seen = (id, depth) ::
      entries next maxDepth (above next maxDepth depth id (seen.insert id) ++ stack)
        (seen.insert id) := by
  rw [entries, dif_neg h]

/-- The nodes entered are those that the walk lists. -/
lemma map_fst_entries (stack : List (NodeId × Nat)) (seen : Seen) :
    (entries next maxDepth stack seen).map Prod.fst = enterAll next maxDepth stack seen := by
  induction stack, seen using entries.induct next maxDepth with
  | case1 seen => rw [entries, enterAll_nil, List.map_nil]
  | case2 seen id depth stack hmet ih => rw [entries_of_mem hmet, enterAll_of_mem hmet, ih]
  | case3 seen id depth stack hnew ih =>
    rw [entries_of_not_mem hnew, enterAll_of_not_mem hnew, List.map_cons, ih]

lemma mem_above {depth : Nat} {id n : NodeId} {d : Nat} {seen : Seen} :
    (n, d) ∈ above next maxDepth depth id seen ↔
      depth < maxDepth ∧ d = depth + 1 ∧ n ∈ next id ∧ n ∉ seen := by
  unfold above
  split
  · next hdepth =>
    simp only [List.mem_map, List.mem_filter, not_contains_iff, Prod.mk.injEq]
    grind
  · next hdepth => simp [hdepth]

lemma mem_insert_iff {seen : Seen} {id n : NodeId} :
    n ∈ seen.insert id ↔ n = id ∨ n ∈ seen := by
  rw [Std.ExtTreeSet.mem_insert, Std.LawfulEqCmp.compare_eq_iff_eq, eq_comm]

/-! ### What is entered -/

/-- No node is entered that was met before. -/
lemma not_mem_of_mem_enterAll {stack : List (NodeId × Nat)} {seen : Seen} {id : NodeId}
    (h : id ∈ enterAll next maxDepth stack seen) : id ∉ seen := by
  induction stack, seen using entries.induct next maxDepth with
  | case1 seen => simp [enterAll_nil] at h
  | case2 seen first depth stack hmet ih => exact ih (enterAll_of_mem hmet depth stack ▸ h)
  | case3 seen first depth stack hnew ih =>
    rw [enterAll_of_not_mem hnew, List.mem_cons] at h
    rcases h with rfl | hlater
    · exact hnew
    · exact fun hmet => ih hlater (mem_insert_iff.2 (.inr hmet))

/-- No node is entered twice. -/
lemma nodup_enterAll (stack : List (NodeId × Nat)) (seen : Seen) :
    (enterAll next maxDepth stack seen).Nodup := by
  induction stack, seen using entries.induct next maxDepth with
  | case1 seen => simp [enterAll_nil]
  | case2 seen id depth stack hmet ih => rwa [enterAll_of_mem hmet]
  | case3 seen id depth stack hnew ih =>
    rw [enterAll_of_not_mem hnew, List.nodup_cons]
    exact ⟨fun hlater => not_mem_of_mem_enterAll hlater (mem_insert_iff.2 (.inl rfl)), ih⟩

/-- Everything on the stack was met before or is entered. -/
lemma mem_enterAll_of_mem_stack {stack : List (NodeId × Nat)} {seen : Seen} {id : NodeId}
    {depth : Nat} (h : (id, depth) ∈ stack) :
    id ∈ seen ∨ id ∈ enterAll next maxDepth stack seen := by
  induction stack, seen using entries.induct next maxDepth with
  | case1 seen => simp at h
  | case2 seen first d stack hmet ih =>
    rw [enterAll_of_mem hmet]
    rcases List.mem_cons.1 h with heq | hbelow
    · exact .inl ((Prod.mk.inj heq).1 ▸ hmet)
    · exact ih hbelow
  | case3 seen first d stack hnew ih =>
    rw [enterAll_of_not_mem hnew, List.mem_cons]
    rcases List.mem_cons.1 h with heq | hbelow
    · exact .inr (.inl (Prod.mk.inj heq).1)
    · have hlater := ih (List.mem_append_right _ hbelow)
      rw [mem_insert_iff] at hlater
      tauto

/-- The neighbours of a node that is entered less deep than the bound are met. -/
lemma mem_enterAll_of_mem_next {stack : List (NodeId × Nat)} {seen : Seen} {a b : NodeId}
    {depth : Nat} (h : (a, depth) ∈ entries next maxDepth stack seen) (hdepth : depth < maxDepth)
    (hnext : b ∈ next a) : b ∈ seen ∨ b ∈ enterAll next maxDepth stack seen := by
  induction stack, seen using entries.induct next maxDepth with
  | case1 seen => simp [entries] at h
  | case2 seen first d stack hmet ih =>
    rw [entries_of_mem hmet] at h
    rw [enterAll_of_mem hmet]
    exact ih h
  | case3 seen first d stack hnew ih =>
    have hlater : b ∈ seen.insert first ∨ b ∈ enterAll next maxDepth
        (above next maxDepth d first (seen.insert first) ++ stack) (seen.insert first) := by
      rw [entries_of_not_mem hnew, List.mem_cons] at h
      rcases h with heq | hbelow
      · obtain ⟨rfl, rfl⟩ := Prod.mk.inj heq
        by_cases hmet : b ∈ seen.insert a
        · exact .inl hmet
        · exact mem_enterAll_of_mem_stack
            (List.mem_append_left _ (mem_above.2 ⟨hdepth, rfl, hnext, hmet⟩))
      · exact ih hbelow
    rw [enterAll_of_not_mem hnew, List.mem_cons]
    rw [mem_insert_iff] at hlater
    tauto

/-- What holds of the stack, and of the neighbours of a node one step deeper whenever it holds of
the node, holds of everything entered. -/
lemma forall_mem_entries {P : NodeId → Nat → Prop} {stack : List (NodeId × Nat)} {seen : Seen}
    (hstack : ∀ entry ∈ stack, P entry.1 entry.2)
    (hhop : ∀ {a b : NodeId} {d : Nat}, P a d → d < maxDepth → b ∈ next a → P b (d + 1)) :
    ∀ entry ∈ entries next maxDepth stack seen, P entry.1 entry.2 := by
  induction stack, seen using entries.induct next maxDepth with
  | case1 seen => simp [entries]
  | case2 seen id depth stack hmet ih =>
    rw [entries_of_mem hmet]
    exact ih (List.forall_mem_cons.1 hstack).2
  | case3 seen id depth stack hnew ih =>
    obtain ⟨hfirst, hbelow⟩ := List.forall_mem_cons.1 hstack
    rw [entries_of_not_mem hnew]
    refine List.forall_mem_cons.2 ⟨hfirst, ih (List.forall_mem_append.2 ⟨?_, hbelow⟩)⟩
    rintro ⟨n, d⟩ hn
    obtain ⟨hdepth, rfl, hnext, -⟩ := mem_above.1 hn
    exact hhop hfirst hdepth hnext

/-- A node is entered at a depth that is less than the number of nodes met. -/
lemma depth_lt_of_mem_entries {stack : List (NodeId × Nat)} {seen : Seen}
    (hstack : ∀ entry ∈ stack, entry.2 ≤ seen.size) :
    ∀ entry ∈ entries next maxDepth stack seen,
      entry.2 < seen.size + (enterAll next maxDepth stack seen).length := by
  induction stack, seen using entries.induct next maxDepth with
  | case1 seen => simp [entries]
  | case2 seen id depth stack hmet ih =>
    rw [entries_of_mem hmet, enterAll_of_mem hmet]
    exact ih (List.forall_mem_cons.1 hstack).2
  | case3 seen id depth stack hnew ih =>
    obtain ⟨hfirst, hbelow⟩ := List.forall_mem_cons.1 hstack
    have hsize := size_insert_of_not_mem hnew
    have hdeeper : ∀ entry ∈ above next maxDepth depth id (seen.insert id) ++ stack,
        entry.2 ≤ (seen.insert id).size := by
      refine List.forall_mem_append.2 ⟨?_, fun entry hentry => ?_⟩
      · rintro ⟨n, d⟩ hn
        obtain ⟨-, rfl, -⟩ := mem_above.1 hn
        dsimp only at hfirst ⊢
        omega
      · have := hbelow entry hentry
        omega
    rw [entries_of_not_mem hnew, enterAll_of_not_mem hnew, List.length_cons]
    refine List.forall_mem_cons.2 ⟨?_, fun entry hentry => ?_⟩
    · dsimp only at hfirst ⊢
      omega
    · have := ih hdeeper entry hentry
      omega

/-! ### From the start nodes -/

/-- The nodes entered by a depth-first walk, with the depths at which they are. -/
def entered (start : List NodeId) (maxDepth : Nat) (next : NodeId → List NodeId) :
    List (NodeId × Nat) :=
  entries next maxDepth (start.map fun id => (id, 0)) ∅

lemma map_fst_entered : (entered start maxDepth next).map Prod.fst
    = depthFirst start maxDepth next :=
  map_fst_entries _ _

lemma exists_mem_entered {id : NodeId} (h : id ∈ depthFirst start maxDepth next) :
    ∃ depth, (id, depth) ∈ entered start maxDepth next := by
  rw [← map_fst_entered] at h
  obtain ⟨⟨id, depth⟩, hentry, rfl⟩ := List.mem_map.1 h
  exact ⟨depth, hentry⟩

/-- A walk leads to every node that is entered, as long as its depth, which is within the
bound. -/
lemma walk_of_mem_entered {id : NodeId} {depth : Nat}
    (h : (id, depth) ∈ entered start maxDepth next) :
    depth ≤ maxDepth ∧ ∃ s ∈ start, Walk next depth s id := by
  refine forall_mem_entries (P := fun id d => d ≤ maxDepth ∧ ∃ s ∈ start, Walk next d s id)
    ?_ ?_ (id, depth) h
  · intro entry hentry
    obtain ⟨s, hs, rfl⟩ := List.mem_map.1 hentry
    exact ⟨Nat.zero_le _, s, hs, .stay s⟩
  · rintro a b d ⟨-, s, hs, hwalk⟩ hd hnext
    exact ⟨hd, s, hs, hwalk.hop hnext⟩

lemma hops_le_of_mem_depthFirst {id : NodeId} (h : id ∈ depthFirst start maxDepth next) :
    hops next start id ≤ maxDepth := by
  obtain ⟨depth, hentry⟩ := exists_mem_entered h
  obtain ⟨hdepth, hwalk⟩ := walk_of_mem_entered hentry
  exact hops_le_iff.2 ⟨depth, hdepth, hwalk⟩

lemma mem_depthFirst_of_mem_start {id : NodeId} (h : id ∈ start) :
    id ∈ depthFirst start maxDepth next :=
  (mem_enterAll_of_mem_stack (List.mem_map.2 ⟨id, h, rfl⟩)).resolve_left (by simp)

lemma mem_depthFirst_of_mem_next {a b : NodeId} {depth : Nat}
    (h : (a, depth) ∈ entered start maxDepth next) (hdepth : depth < maxDepth)
    (hnext : b ∈ next a) : b ∈ depthFirst start maxDepth next :=
  (mem_enterAll_of_mem_next h hdepth hnext).resolve_left (by simp)

lemma hops_lt_iff {id : NodeId} {d : Nat} :
    hops next start id < d ↔ ∃ n < d, ∃ s ∈ start, Walk next n s id := by
  constructor
  · intro hlt
    obtain ⟨m, hm⟩ := ENat.ne_top_iff_exists.1 hlt.ne_top
    rw [← hm, Nat.cast_lt] at hlt
    obtain ⟨n, hn, hwalk⟩ := hops_le_iff.1 hm.ge
    exact ⟨n, by omega, hwalk⟩
  · rintro ⟨n, hn, hwalk⟩
    calc hops next start id ≤ (n : ℕ∞) := hops_le_iff.2 ⟨n, le_rfl, hwalk⟩
      _ < (d : ℕ∞) := Nat.cast_lt.2 hn

/-- A depth-first walk misses no node that is near enough exactly if it lists all neighbours of
the nodes that it enters at the bound although they are nearer. -/
lemma depthFirst_misses_nothing_iff :
    (∀ id, id ∈ depthFirst start maxDepth next ↔ hops next start id ≤ maxDepth) ↔
      ∀ a, (a, maxDepth) ∈ entered start maxDepth next → hops next start a < maxDepth →
        ∀ b ∈ next a, b ∈ depthFirst start maxDepth next := by
  constructor
  · intro hall a _ hnear b hnext
    obtain ⟨n, hn, s, hs, hwalk⟩ := hops_lt_iff.1 hnear
    exact (hall b).2 (hops_le_iff.2 ⟨n + 1, hn, s, hs, hwalk.hop hnext⟩)
  · intro hclosed id
    refine ⟨hops_le_of_mem_depthFirst, fun hnear => ?_⟩
    obtain ⟨n, hn, s, hs, hwalk⟩ := hops_le_iff.1 hnear
    clear hnear
    induction hwalk with
    | stay a => exact mem_depthFirst_of_mem_start hs
    | @hop n _ a b hbefore hlast ih =>
      obtain ⟨depth, hentry⟩ := exists_mem_entered (ih (by omega) hs)
      rcases (walk_of_mem_entered hentry).1.lt_or_eq with hdepth | rfl
      · exact mem_depthFirst_of_mem_next hentry hdepth hlast
      · exact hclosed a hentry (hops_lt_iff.2 ⟨n, hn, _, hs, hbefore⟩) b hlast

/-- No node is entered at the bound by a walk that lists no more nodes than the bound. -/
lemma not_mem_entered_of_length_le (h : (depthFirst start maxDepth next).length ≤ maxDepth)
    (id : NodeId) : (id, maxDepth) ∉ entered start maxDepth next := by
  intro hentry
  have hstack : ∀ entry ∈ start.map fun id => (id, 0), entry.2 ≤ (∅ : Seen).size := by
    intro entry hentry
    obtain ⟨s, -, rfl⟩ := List.mem_map.1 hentry
    exact Nat.zero_le _
  have hlt : maxDepth < (∅ : Seen).size + (depthFirst start maxDepth next).length :=
    depth_lt_of_mem_entries hstack _ hentry
  rw [Std.ExtTreeSet.size_empty] at hlt
  omega

/-! ### What a depth-first walk reaches -/

/-- A depth-first walk lists nodes that are near enough only, none twice.  It lists what a
breadth-first walk with the same bound lists exactly if it lists all neighbours of the nodes that
it enters at the bound although they are nearer, and so in particular if it lists no more nodes
than the bound. -/
theorem depthFirst_within_bound (start : List NodeId) (maxDepth : Nat)
    (next : NodeId → List NodeId) :
    (depthFirst start maxDepth next).Nodup ∧
      (entered start maxDepth next).map Prod.fst = depthFirst start maxDepth next ∧
      depthFirst start maxDepth next ⊆ breadthFirst start maxDepth next ∧
      (breadthFirst start maxDepth next ⊆ depthFirst start maxDepth next ↔
        ∀ a, (a, maxDepth) ∈ entered start maxDepth next → hops next start a < maxDepth →
          next a ⊆ depthFirst start maxDepth next) ∧
      ((depthFirst start maxDepth next).length ≤ maxDepth →
        breadthFirst start maxDepth next ⊆ depthFirst start maxDepth next) := by
  have hnear : depthFirst start maxDepth next ⊆ breadthFirst start maxDepth next :=
    fun id hid => mem_breadthFirst.2 (hops_le_of_mem_depthFirst hid)
  have hiff : breadthFirst start maxDepth next ⊆ depthFirst start maxDepth next ↔
      ∀ a, (a, maxDepth) ∈ entered start maxDepth next → hops next start a < maxDepth →
        next a ⊆ depthFirst start maxDepth next := by
    refine Iff.trans ?_ depthFirst_misses_nothing_iff
    simp only [← mem_breadthFirst]
    exact ⟨fun hall id => ⟨fun hid => hnear hid, fun hid => hall hid⟩,
      fun hall id hid => (hall id).2 hid⟩
  refine ⟨nodup_enterAll _ _, map_fst_entered, hnear, hiff, fun hlength => hiff.2 ?_⟩
  exact fun a hentry => absurd hentry (not_mem_entered_of_length_le hlength a)

/-- The node `4` is two hops from `1` by way of `3`, which can also be reached by way of `2`. -/
def detour (id : NodeId) : List NodeId :=
  if id = .ofNat 1 then [.ofNat 2, .ofNat 3]
  else if id = .ofNat 2 then [.ofNat 3]
  else if id = .ofNat 3 then [.ofNat 4]
  else []

theorem depthFirst_within_bound_detour :
    (depthFirst [.ofNat 1] 4 detour).length ≤ 4 ∧
      breadthFirst [.ofNat 1] 4 detour ⊆ depthFirst [.ofNat 1] 4 detour := by
  have hlist : depthFirst [.ofNat 1] 4 detour = [.ofNat 1, .ofNat 2, .ofNat 3, .ofNat 4] := by
    cbv
  have hlength : (depthFirst [.ofNat 1] 4 detour).length ≤ 4 := by rw [hlist]; rfl
  exact ⟨hlength, (depthFirst_within_bound _ _ _).2.2.2.2 hlength⟩

/-- Within two hops, the walk comes to `3` by the longer way and does not go on to `4`, although
there is a way that is short enough. -/
theorem detour_hides_near_node :
    depthFirst [.ofNat 1] 2 detour = [.ofNat 1, .ofNat 2, .ofNat 3] ∧
      breadthFirst [.ofNat 1] 2 detour = [.ofNat 1, .ofNat 2, .ofNat 3, .ofNat 4] ∧
      hops detour [.ofNat 1] (.ofNat 4) ≤ (2 : ℕ) ∧
      ¬ ∀ (start : List NodeId) (maxDepth : Nat) (next : NodeId → List NodeId) (id : NodeId),
        id ∈ depthFirst start maxDepth next ↔ hops next start id ≤ maxDepth := by
  have hlist : depthFirst [.ofNat 1] 2 detour = [.ofNat 1, .ofNat 2, .ofNat 3] := by cbv
  have hbreadth : breadthFirst [.ofNat 1] 2 detour = [.ofNat 1, .ofNat 2, .ofNat 3, .ofNat 4] := by
    decide +kernel
  have hnear : hops detour [.ofNat 1] (.ofNat 4) ≤ (2 : ℕ) := by
    rw [← mem_breadthFirst, hbreadth]
    decide
  refine ⟨hlist, hbreadth, hnear, fun hall => ?_⟩
  have hfour := (hall _ _ _ _).2 hnear
  rw [hlist] at hfour
  exact absurd hfour (by decide)

end CodeGraph.Traversal
