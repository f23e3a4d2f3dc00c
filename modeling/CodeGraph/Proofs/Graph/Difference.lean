import Mathlib
import CodeGraph.Proofs.Graph.Snapshot

/-!
# Differences between snapshots

What is told about two snapshots is counted from two maps of nodes and two maps of edges, beside
the totals that were noted when the snapshots were made.  `SnapshotDiff.Tells` says it with finite
sets of keys, and everything else follows from cardinalities.

* In every reachable graph the noted totals are the sizes of what the snapshots keep
  (`Reachable.wellNoted`), so differences balance (`Reachable.diffSnapshots_balance`).
* Nodes are compared as they are, but edges by their keys only.  A difference in which nothing is
  counted means the same nodes and the same keys of edges; the edges are the same exactly if none
  was replaced under its key (`Reachable.isEmpty_diffSnapshots_iff`).
-/

namespace CodeGraph

open Std (ExtTreeMap LawfulEqCmp)

/-! ### Differences of finite sets -/

section Sets

variable {κ : Type} [DecidableEq κ]

/-- A set with what it lacks of another one is as large as this one with what it lacks of the
first: both are the union. -/
lemma card_add_card_sdiff (s t : Finset κ) :
    s.card + (t \ s).card = t.card + (s \ t).card := by
  rw [add_comm, Finset.card_sdiff_add_card, Finset.union_comm, ← Finset.card_sdiff_add_card,
    add_comm]

lemma eq_iff_card_sdiff {s t : Finset κ} : s = t ↔ (t \ s).card = 0 ∧ (s \ t).card = 0 := by
  rw [Finset.card_eq_zero, Finset.card_eq_zero, Finset.sdiff_eq_empty_iff_subset,
    Finset.sdiff_eq_empty_iff_subset, and_comm, Finset.Subset.antisymm_iff]

lemma card_sdiff_le (s t u : Finset κ) : (u \ s).card ≤ (t \ s).card + (u \ t).card := by
  rw [add_comm]
  exact (Finset.card_le_card (sdiff_triangle u t s)).trans (Finset.card_union_le _ _)

end Sets

/-! ### Keys of two maps -/

section Keys

variable {κ α : Type} [Ord κ] [Std.TransOrd κ] [DecidableEq κ]

/-- The keys of a map. -/
def keySet (m : ExtTreeMap κ α) : Finset κ :=
  m.keys.toFinset

lemma card_keySet (m : ExtTreeMap κ α) : (keySet m).card = m.size := by
  rw [keySet, List.toFinset_card_of_nodup ExtTreeMap.nodup_keys, ExtTreeMap.length_keys]

/-- The keys that two maps share with different values under them. -/
def changedKeys [DecidableEq α] (m m' : ExtTreeMap κ α) : Finset κ :=
  (keySet m ∩ keySet m').filter fun key => m[key]? ≠ m'[key]?

lemma changedKeys_comm [DecidableEq α] (m m' : ExtTreeMap κ α) :
    changedKeys m m' = changedKeys m' m := by
  ext key
  simp only [changedKeys, Finset.mem_filter, Finset.mem_inter, and_comm, ne_comm]

lemma changedKeys_self [DecidableEq α] (m : ExtTreeMap κ α) : changedKeys m m = ∅ := by
  simp [changedKeys]

variable [Std.LawfulEqOrd κ] {m m' : ExtTreeMap κ α} {key : κ}

@[simp] lemma mem_keySet : key ∈ keySet m ↔ key ∈ m := by
  simp [keySet]

/-- Counting the keys of a map that another one lacks. -/
lemma countP_not_contains (m m' : ExtTreeMap κ α) :
    m'.keys.countP (!m.contains ·) = (keySet m' \ keySet m).card := by
  have hset : keySet m' \ keySet m = (m'.keys.filter (!m.contains ·)).toFinset := by
    ext key
    simp [← ExtTreeMap.contains_iff_mem]
  rw [hset, List.toFinset_card_of_nodup (ExtTreeMap.nodup_keys.filter _),
    List.countP_eq_length_filter]

variable [DecidableEq α]

lemma mem_changedKeys : key ∈ changedKeys m m' ↔
    ∃ value value', m[key]? = some value ∧ m'[key]? = some value' ∧ value ≠ value' := by
  simp only [changedKeys, Finset.mem_filter, Finset.mem_inter, mem_keySet]
  constructor
  · rintro ⟨⟨hkey, hkey'⟩, hne⟩
    have hget := ExtTreeMap.getElem?_eq_some_getElem hkey
    have hget' := ExtTreeMap.getElem?_eq_some_getElem hkey'
    refine ⟨m[key], m'[key], hget, hget', fun heq => hne ?_⟩
    rw [hget, hget', heq]
  · rintro ⟨value, value', hvalue, hvalue', hne⟩
    refine ⟨⟨(ExtTreeMap.getElem?_eq_some_iff.1 hvalue).1,
      (ExtTreeMap.getElem?_eq_some_iff.1 hvalue').1⟩, ?_⟩
    rw [hvalue, hvalue']
    simpa using hne

/-- Counting the entries of a map whose keys have another value in an earlier one. -/
lemma countP_changed {changed : κ × α → Bool} (hchanged : ∀ key value,
    changed (key, value) ↔ ∃ old, m[key]? = some old ∧ old ≠ value) :
    m'.toList.countP changed = (changedKeys m m').card := by
  have hset : changedKeys m m' = ((m'.toList.filter changed).map Prod.fst).toFinset := by
    ext key
    simp only [mem_changedKeys, List.mem_toFinset, List.mem_map, List.mem_filter, Prod.exists,
      exists_and_right, exists_eq_right, ExtTreeMap.mem_toList_iff_getElem?_eq_some, hchanged]
    constructor
    · rintro ⟨old, value, hold, hvalue, hne⟩
      exact ⟨value, hvalue, old, hold, hne⟩
    · rintro ⟨value, hvalue, old, hold, hne⟩
      exact ⟨old, value, hold, hvalue, hne⟩
  have hnodup : ((m'.toList.filter changed).map Prod.fst).Nodup := by
    refine List.Nodup.sublist (List.filter_sublist.map Prod.fst) ?_
    rw [ExtTreeMap.map_fst_toList_eq_keys]
    exact ExtTreeMap.nodup_keys
  rw [hset, List.toFinset_card_of_nodup hnodup, List.length_map, List.countP_eq_length_filter]

/-- Maps with the same keys are equal when no value was changed. -/
lemma eq_iff_changedKeys_eq_empty (hkeys : keySet m = keySet m') :
    m = m' ↔ changedKeys m m' = ∅ := by
  constructor
  · rintro rfl
    exact changedKeys_self m
  · intro hnone
    apply ExtTreeMap.ext_getElem?
    intro key
    have hshared : key ∈ m ↔ key ∈ m' := by
      rw [← mem_keySet, hkeys, mem_keySet]
    by_cases hkey : key ∈ m
    · have hget := ExtTreeMap.getElem?_eq_some_getElem hkey
      have hget' := ExtTreeMap.getElem?_eq_some_getElem (hshared.1 hkey)
      by_contra hne
      have hmem : key ∈ changedKeys m m' := by
        refine mem_changedKeys.2 ⟨_, _, hget, hget', fun heq => hne ?_⟩
        rw [hget, hget', heq]
      rw [hnone] at hmem
      exact Finset.notMem_empty key hmem
    · have hkey' : key ∉ m' := fun hkey' => hkey (hshared.2 hkey')
      rw [ExtTreeMap.getElem?_eq_none hkey, ExtTreeMap.getElem?_eq_none hkey']

end Keys

/-! ### What a difference tells -/

/-- What a difference tells about the snapshots of two versions: their totals, which keys came and
went, and how many nodes are not what they were. -/
structure SnapshotDiff.Tells (d : SnapshotDiff) (a b : Nat) (first second : Snapshot) : Prop where
  source : d.source = a
  target : d.target = b
  addedNodes : d.addedNodes = (keySet second.contents.nodes \ keySet first.contents.nodes).card
  removedNodes : d.removedNodes = (keySet first.contents.nodes \ keySet second.contents.nodes).card
  changedNodes : d.changedNodes = (changedKeys first.contents.nodes second.contents.nodes).card
  addedEdges : d.addedEdges = (keySet second.contents.edges \ keySet first.contents.edges).card
  removedEdges : d.removedEdges = (keySet first.contents.edges \ keySet second.contents.edges).card
  sourceNodes : d.sourceNodes = first.totalNodes
  sourceEdges : d.sourceEdges = first.totalEdges
  targetNodes : d.targetNodes = second.totalNodes
  targetEdges : d.targetEdges = second.totalEdges

/-- Whether nothing is counted in a difference. -/
structure SnapshotDiff.IsEmpty (d : SnapshotDiff) : Prop where
  addedNodes : d.addedNodes = 0
  removedNodes : d.removedNodes = 0
  changedNodes : d.changedNodes = 0
  addedEdges : d.addedEdges = 0
  removedEdges : d.removedEdges = 0

/-- The difference in the other direction: what came has gone, and what was changed is changed
back. -/
def SnapshotDiff.reversed (d : SnapshotDiff) : SnapshotDiff where
  source := d.target
  target := d.source
  addedNodes := d.removedNodes
  removedNodes := d.addedNodes
  changedNodes := d.changedNodes
  addedEdges := d.removedEdges
  removedEdges := d.addedEdges
  sourceNodes := d.targetNodes
  sourceEdges := d.targetEdges
  targetNodes := d.sourceNodes
  targetEdges := d.sourceEdges

/-- The totals that were noted in a snapshot are the sizes of what it keeps. -/
def Snapshot.WellNoted (snapshot : Snapshot) : Prop :=
  snapshot.totalNodes = snapshot.contents.nodes.size ∧
    snapshot.totalEdges = snapshot.contents.edges.size

namespace SnapshotDiff.Tells

variable {d d' : SnapshotDiff} {a b c : Nat} {first second third : Snapshot}

/-- What is there before and what comes is what is there afterwards and what goes: both are all
keys of the two maps. -/
lemma balance (h : d.Tells a b first second) (hfirst : first.WellNoted)
    (hsecond : second.WellNoted) :
    d.sourceNodes + d.addedNodes = d.targetNodes + d.removedNodes ∧
      d.sourceEdges + d.addedEdges = d.targetEdges + d.removedEdges := by
  constructor
  · rw [h.sourceNodes, h.addedNodes, h.targetNodes, h.removedNodes, hfirst.1, hsecond.1,
      ← card_keySet, ← card_keySet]
    exact card_add_card_sdiff _ _
  · rw [h.sourceEdges, h.addedEdges, h.targetEdges, h.removedEdges, hfirst.2, hsecond.2,
      ← card_keySet, ← card_keySet]
    exact card_add_card_sdiff _ _

/-- In the other direction the reversed difference is told. -/
lemma reversed (h : d.Tells a b first second) : d.reversed.Tells b a second first where
  source := h.target
  target := h.source
  addedNodes := h.removedNodes
  removedNodes := h.addedNodes
  changedNodes := by
    rw [changedKeys_comm]
    exact h.changedNodes
  addedEdges := h.removedEdges
  removedEdges := h.addedEdges
  sourceNodes := h.targetNodes
  sourceEdges := h.targetEdges
  targetNodes := h.sourceNodes
  targetEdges := h.sourceEdges

/-- There is only one difference to tell. -/
lemma unique (h : d.Tells a b first second) (h' : d'.Tells a b first second) : d = d' := by
  cases d
  cases d'
  simp only [mk.injEq]
  exact ⟨h.source.trans h'.source.symm, h.target.trans h'.target.symm,
    h.addedNodes.trans h'.addedNodes.symm, h.removedNodes.trans h'.removedNodes.symm,
    h.changedNodes.trans h'.changedNodes.symm, h.addedEdges.trans h'.addedEdges.symm,
    h.removedEdges.trans h'.removedEdges.symm, h.sourceNodes.trans h'.sourceNodes.symm,
    h.sourceEdges.trans h'.sourceEdges.symm, h.targetNodes.trans h'.targetNodes.symm,
    h.targetEdges.trans h'.targetEdges.symm⟩

/-- Nothing is counted exactly if the nodes are the same and the edges have the same keys. -/
lemma isEmpty_iff (h : d.Tells a b first second) :
    d.IsEmpty ↔ first.contents.nodes = second.contents.nodes ∧
      keySet first.contents.edges = keySet second.contents.edges := by
  constructor
  · intro hempty
    have hnodes : keySet first.contents.nodes = keySet second.contents.nodes :=
      eq_iff_card_sdiff.2 ⟨h.addedNodes.symm.trans hempty.addedNodes,
        h.removedNodes.symm.trans hempty.removedNodes⟩
    refine ⟨(eq_iff_changedKeys_eq_empty hnodes).2 ?_, eq_iff_card_sdiff.2 ⟨?_, ?_⟩⟩
    · exact Finset.card_eq_zero.1 (h.changedNodes.symm.trans hempty.changedNodes)
    · exact h.addedEdges.symm.trans hempty.addedEdges
    · exact h.removedEdges.symm.trans hempty.removedEdges
  · rintro ⟨hnodes, hedges⟩
    obtain ⟨hadded, hremoved⟩ := eq_iff_card_sdiff.1 hedges
    have hchanged := h.changedNodes
    rw [hnodes, changedKeys_self, Finset.card_empty] at hchanged
    refine ⟨?_, ?_, hchanged, h.addedEdges.trans hadded, h.removedEdges.trans hremoved⟩
    · rw [h.addedNodes, hnodes, Finset.sdiff_self, Finset.card_empty]
    · rw [h.removedNodes, hnodes, Finset.sdiff_self, Finset.card_empty]

/-- What comes on a way over a third snapshot comes on one of its two parts, and what goes goes on
one of them. -/
lemma triangle {ab bc ac : SnapshotDiff} (hab : ab.Tells a b first second)
    (hbc : bc.Tells b c second third) (hac : ac.Tells a c first third) :
    ac.addedNodes ≤ ab.addedNodes + bc.addedNodes ∧
      ac.removedNodes ≤ ab.removedNodes + bc.removedNodes ∧
      ac.addedEdges ≤ ab.addedEdges + bc.addedEdges ∧
      ac.removedEdges ≤ ab.removedEdges + bc.removedEdges := by
  refine ⟨?_, ?_, ?_, ?_⟩
  · rw [hac.addedNodes, hab.addedNodes, hbc.addedNodes]
    exact card_sdiff_le _ _ _
  · rw [hac.removedNodes, hab.removedNodes, hbc.removedNodes, add_comm]
    exact card_sdiff_le _ _ _
  · rw [hac.addedEdges, hab.addedEdges, hbc.addedEdges]
    exact card_sdiff_le _ _ _
  · rw [hac.removedEdges, hab.removedEdges, hbc.removedEdges, add_comm]
    exact card_sdiff_le _ _ _

end SnapshotDiff.Tells

namespace Graph

/-- The difference between two snapshots that are there is told. -/
lemma exists_diffSnapshots {g : Graph} {a b : Nat} {first second : Snapshot}
    (hfirst : g.snapshots[a]? = some first) (hsecond : g.snapshots[b]? = some second) :
    ∃ d, g.diffSnapshots a b = .ok d ∧ d.Tells a b first second := by
  have ha : g.snapshot a = .ok first := by
    unfold snapshot
    rw [hfirst]
  have hb : g.snapshot b = .ok second := by
    unfold snapshot
    rw [hsecond]
  unfold diffSnapshots
  rw [ha, hb]
  refine ⟨_, rfl, rfl, rfl, countP_not_contains _ _, countP_not_contains _ _, countP_changed ?_,
    countP_not_contains _ _, countP_not_contains _ _, rfl, rfl, rfl, rfl⟩
  intro id node
  dsimp only
  cases first.contents.nodes[id]? with
  | none => simp
  | some old => simp

/-! ### What is noted in snapshots -/

/-- In all snapshots of a graph the totals are the sizes of what they keep. -/
def WellNoted (g : Graph) : Prop :=
  ∀ (version : Nat) (snapshot : Snapshot),
    g.snapshots[version]? = some snapshot → snapshot.WellNoted

lemma wellNoted_of_snapshots_eq_empty {g : Graph} (h : g.snapshots = ∅) : g.WellNoted := by
  intro version snapshot hsnapshot
  simp [h] at hsnapshot

/-- Totals are noted when a snapshot is made, and no operation touches them or what is kept. -/
lemma WellNoted.perform {g : Graph} (h : g.WellNoted) (op : Operation) :
    (g.perform op).WellNoted := by
  intro version snapshot hsnapshot
  rcases perform_archive g op with hsame | ⟨tags, now, rfl⟩ |
    ⟨tagged, _, old, _, -, hold, hsnapshots, -⟩ | ⟨deleted, -, hsnapshots, -⟩
  · rw [hsame.1] at hsnapshot
    exact h _ _ hsnapshot
  · change (g.snapshots.insert g.nextVersion _)[version]? = some snapshot at hsnapshot
    rw [ExtTreeMap.getElem?_insert] at hsnapshot
    split at hsnapshot
    · obtain rfl := Option.some.inj hsnapshot
      exact ⟨rfl, rfl⟩
    · exact h _ _ hsnapshot
  · rw [hsnapshots, ExtTreeMap.getElem?_insert] at hsnapshot
    split at hsnapshot
    · obtain rfl := Option.some.inj hsnapshot
      exact h tagged old hold
    · exact h _ _ hsnapshot
  · rw [hsnapshots, ExtTreeMap.getElem?_erase] at hsnapshot
    split at hsnapshot
    · simp at hsnapshot
    · exact h _ _ hsnapshot

/-- In every reachable graph the totals in the snapshots are right. -/
theorem Reachable.wellNoted {g : Graph} (h : Reachable g) : g.WellNoted := by
  induction h with
  | ephemeral => exact wellNoted_of_snapshots_eq_empty rfl
  | created h =>
    have hempty := create_fst_eq_ok (congrArg Prod.fst h)
    exact wellNoted_of_snapshots_eq_empty (by rw [hempty]; rfl)
  | opened h =>
    rcases load_eq_ok h with rfl | ⟨image, rfl⟩
    · exact wellNoted_of_snapshots_eq_empty rfl
    · exact wellNoted_of_snapshots_eq_empty (sameArchive_ofImage _ image).1
  | step op _ ih => exact ih.perform op

/-! ### Reachable graphs -/

/-- In every reachable graph the difference between two stored versions is told by the nodes and
edges that their snapshots keep, beside the sizes of these.  What was there and what came
balances what is there and what went; the difference in the other direction is the reversed one;
between a version and itself nothing is counted; and on the way over a third version no less
comes and goes. -/
theorem Reachable.diffSnapshots_balance {g : Graph} (h : Reachable g) {a b : Nat}
    {first second : Snapshot} (hfirst : g.snapshots[a]? = some first)
    (hsecond : g.snapshots[b]? = some second) :
    ∃ ab, g.diffSnapshots a b = .ok ab ∧ ab.Tells a b first second ∧
      first.WellNoted ∧ second.WellNoted ∧
      ab.sourceNodes + ab.addedNodes = ab.targetNodes + ab.removedNodes ∧
      ab.sourceEdges + ab.addedEdges = ab.targetEdges + ab.removedEdges ∧
      g.diffSnapshots b a = .ok ab.reversed ∧
      (∃ aa, g.diffSnapshots a a = .ok aa ∧ aa.IsEmpty) ∧
      ∀ c ∈ g.snapshots, ∃ bc ac, g.diffSnapshots b c = .ok bc ∧ g.diffSnapshots a c = .ok ac ∧
        ac.addedNodes ≤ ab.addedNodes + bc.addedNodes ∧
        ac.removedNodes ≤ ab.removedNodes + bc.removedNodes ∧
        ac.addedEdges ≤ ab.addedEdges + bc.addedEdges ∧
        ac.removedEdges ≤ ab.removedEdges + bc.removedEdges := by
  obtain ⟨ab, hdiff, hab⟩ := exists_diffSnapshots hfirst hsecond
  have hnoted : first.WellNoted := h.wellNoted a first hfirst
  have hnoted' : second.WellNoted := h.wellNoted b second hsecond
  obtain ⟨hnodes, hedges⟩ := hab.balance hnoted hnoted'
  refine ⟨ab, hdiff, hab, hnoted, hnoted', hnodes, hedges, ?_, ?_, fun c hc => ?_⟩
  · obtain ⟨ba, hreverse, hba⟩ := exists_diffSnapshots hsecond hfirst
    rw [hreverse, hba.unique hab.reversed]
  · obtain ⟨aa, hself, haa⟩ := exists_diffSnapshots hfirst hfirst
    exact ⟨aa, hself, haa.isEmpty_iff.2 ⟨rfl, rfl⟩⟩
  · have hthird := ExtTreeMap.getElem?_eq_some_getElem hc
    obtain ⟨bc, hdiff', hbc⟩ := exists_diffSnapshots hsecond hthird
    obtain ⟨ac, hdiff'', hac⟩ := exists_diffSnapshots hfirst hthird
    exact ⟨bc, ac, hdiff', hdiff'', hab.triangle hbc hac⟩

/-! ### Differences in which nothing is counted -/

/-- Indexes are built from the nodes and the keys of the edges alone. -/
lemma scan_congr (fields : List FieldDecl) {contents contents' : Contents}
    (hnodes : contents.nodes = contents'.nodes)
    (hedges : keySet contents.edges = keySet contents'.edges) :
    Index.scan fields contents = Index.scan fields contents' := by
  have hkeys : contents.edges.keys = contents'.edges.keys := by
    refine eq_of_increasing_of_mem_iff (increasing_keys _) (increasing_keys _) fun key => ?_
    rw [ExtTreeMap.mem_keys, ExtTreeMap.mem_keys, ← mem_keySet, hedges, mem_keySet]
  have hscan (contents : Contents) : Index.scan fields contents =
      contents.edges.keys.foldl Index.addEdge (contents.nodes.foldl
        (fun index _ node => index.addNode fields node) .empty) := by
    unfold Index.scan
    rw [ExtTreeMap.foldl_eq_foldl_toList, ← ExtTreeMap.map_fst_toList_eq_keys, List.foldl_map]
  rw [hscan, hscan, hnodes, hkeys]

/-- Edges that lie under one key differ at most in their metadata and in whether an empty type is
missing. -/
lemma Consistent.same_ends {g : Graph} (h : g.Consistent) {a b : Nat} {first second : Snapshot}
    (hfirst : g.snapshots[a]? = some first) (hsecond : g.snapshots[b]? = some second)
    {key : EdgeKey} {edge edge' : Edge} (hedge : first.contents.edges[key]? = some edge)
    (hedge' : second.contents.edges[key]? = some edge') :
    edge.src = edge'.src ∧ edge.dst = edge'.dst ∧ edge.type.getD "" = edge'.type.getD "" := by
  have hkey : edge.key = edge'.key :=
    ((h.snapshots hfirst).edge hedge).trans ((h.snapshots hsecond).edge hedge').symm
  simpa [Edge.key] using hkey

/-- In every reachable graph, nothing is counted in the difference between two stored versions
exactly if the nodes of their snapshots are the same and the edges have the same keys.  Restoring
either version then gives the same nodes and the same index, but the edges are the same, and with
them all of the graph, exactly if none of them was replaced by another one under its key; what
was replaced is metadata, or a missing type by the empty one. -/
theorem Reachable.isEmpty_diffSnapshots_iff {g : Graph} (h : Reachable g) {a b : Nat}
    {first second : Snapshot} (hfirst : g.snapshots[a]? = some first)
    (hsecond : g.snapshots[b]? = some second) :
    ∃ d restored restored', g.diffSnapshots a b = .ok d ∧ g.restoreSnapshot a = .ok restored ∧
      g.restoreSnapshot b = .ok restored' ∧
      (d.IsEmpty ↔ first.contents.nodes = second.contents.nodes ∧
        ∀ key, key ∈ first.contents.edges ↔ key ∈ second.contents.edges) ∧
      (d.IsEmpty → restored.nodes = restored'.nodes ∧ restored.index = restored'.index ∧
        (first.contents = second.contents ↔
          changedKeys first.contents.edges second.contents.edges = ∅) ∧
        (restored = restored' ↔
          changedKeys first.contents.edges second.contents.edges = ∅)) ∧
      ∀ (key : EdgeKey) (edge edge' : Edge), first.contents.edges[key]? = some edge →
        second.contents.edges[key]? = some edge' →
        edge.src = edge'.src ∧ edge.dst = edge'.dst ∧ edge.type.getD "" = edge'.type.getD "" := by
  obtain ⟨d, hdiff, htells⟩ := exists_diffSnapshots hfirst hsecond
  have hrestored := map_snapshot_of_eq_some hfirst fun snapshot =>
    { g.setContents snapshot.contents with unflushed := g.unflushed + 1 }
  have hrestored' := map_snapshot_of_eq_some hsecond fun snapshot =>
    { g.setContents snapshot.contents with unflushed := g.unflushed + 1 }
  refine ⟨d, _, _, hdiff, hrestored, hrestored', ?_, fun hempty => ?_, fun key edge edge' => ?_⟩
  · rw [htells.isEmpty_iff, Finset.ext_iff]
    simp only [mem_keySet]
  · obtain ⟨hnodes, hkeys⟩ := htells.isEmpty_iff.1 hempty
    have hcontents : first.contents = second.contents ↔
        changedKeys first.contents.edges second.contents.edges = ∅ := by
      rw [← eq_iff_changedKeys_eq_empty hkeys]
      refine ⟨congrArg Contents.edges, fun hedges => ?_⟩
      cases hleft : first.contents
      cases hright : second.contents
      simp_all
    refine ⟨hnodes, scan_congr g.fields hnodes hkeys, hcontents, ?_⟩
    rw [← hcontents]
    refine ⟨fun hsame => congrArg Graph.toContents hsame, fun hsame => ?_⟩
    rw [hsame]
  · exact h.consistent.same_ends hfirst hsecond

/-- Nodes come, go and change with the edges at them, and an earlier snapshot is restored in
between. -/
def growingRun : List Operation :=
  [.addNodes [bareNode 1 (some "call"), bareNode 2 (some "call")],
    .addEdges [⟨.ofNat 1, .ofNat 2, some "calls", none⟩] true,
    .createSnapshot ∅ 0,
    .deleteNode (.ofNat 1), .addNodes [bareNode 2 (some "http:route"), bareNode 3 none],
    .createSnapshot ∅ 1,
    .restoreSnapshot 1, .addEdges [⟨.ofNat 2, .ofNat 2, none, none⟩] true,
    .createSnapshot ∅ 2]

/-- The graph after this run. -/
def grown : Graph := ephemeral.performAll growingRun

lemma grown_reachable : Reachable grown :=
  Reachable.ephemeral.performAll growingRun

theorem diffSnapshots_balance_grown : Reachable grown ∧ 3 ∈ grown.snapshots ∧
    ∃ first second ab, grown.snapshots[1]? = some first ∧ grown.snapshots[2]? = some second ∧
      grown.diffSnapshots 1 2 = .ok ab ∧
      ab = ⟨1, 2, 1, 1, 1, 0, 1, 2, 1, 2, 0⟩ ∧
      ab.sourceNodes + ab.addedNodes = ab.targetNodes + ab.removedNodes ∧
      grown.diffSnapshots 2 1 = .ok ab.reversed ∧
      ∃ bc ac, grown.diffSnapshots 2 3 = .ok bc ∧ grown.diffSnapshots 1 3 = .ok ac ∧
        ac.addedEdges ≤ ab.addedEdges + bc.addedEdges := by
  have hthird : 3 ∈ grown.snapshots := by decide +kernel
  have hfirst := ExtTreeMap.getElem?_eq_some_getElem (show 1 ∈ grown.snapshots by decide +kernel)
  have hsecond := ExtTreeMap.getElem?_eq_some_getElem (show 2 ∈ grown.snapshots by decide +kernel)
  obtain ⟨ab, hdiff, -, -, -, hnodes, -, hreverse, -, hway⟩ :=
    grown_reachable.diffSnapshots_balance hfirst hsecond
  obtain ⟨bc, ac, hdiff', hdiff'', -, -, hedges, -⟩ := hway 3 hthird
  have hcounts : (grown.diffSnapshots 1 2).toOption = some ⟨1, 2, 1, 1, 1, 0, 1, 2, 1, 2, 0⟩ := by
    decide +kernel
  rw [hdiff] at hcounts
  exact ⟨grown_reachable, hthird, _, _, ab, hfirst, hsecond, hdiff, Option.some.inj hcounts,
    hnodes, hreverse, bc, ac, hdiff', hdiff'', hedges⟩

/-- A call with the place of its argument noted. -/
def argumentCall (place : String) : Edge :=
  ⟨.ofNat 1, .ofNat 2, some "calls", some place⟩

/-- Between the first two snapshots a node is deleted that comes back, before the third one an
edge is replaced. -/
def replacingRun : List Operation :=
  [.addNodes [bareNode 1 (some "call"), bareNode 2 (some "call")],
    .addEdges [argumentCall "\x7b\"argIndex\":0\x7d"] true,
    .createSnapshot ∅ 0,
    .deleteNode (.ofNat 2), .addNodes [bareNode 2 (some "call")],
    .addEdges [argumentCall "\x7b\"argIndex\":0\x7d"] true,
    .createSnapshot ∅ 1,
    .addEdges [argumentCall "\x7b\"argIndex\":1\x7d"] true,
    .createSnapshot ∅ 2]

/-- The graph after this run. -/
def replacing : Graph := ephemeral.performAll replacingRun

lemma replacing_reachable : Reachable replacing :=
  Reachable.ephemeral.performAll replacingRun

theorem isEmpty_diffSnapshots_iff_replacing : Reachable replacing ∧
    ∃ first second d restored restored', replacing.snapshots[1]? = some first ∧
      replacing.snapshots[2]? = some second ∧ replacing.diffSnapshots 1 2 = .ok d ∧ d.IsEmpty ∧
      replacing.restoreSnapshot 1 = .ok restored ∧ replacing.restoreSnapshot 2 = .ok restored' ∧
      changedKeys first.contents.edges second.contents.edges = ∅ ∧ restored = restored' := by
  have hfirst := ExtTreeMap.getElem?_eq_some_getElem
    (show 1 ∈ replacing.snapshots by decide +kernel)
  have hsecond := ExtTreeMap.getElem?_eq_some_getElem
    (show 2 ∈ replacing.snapshots by decide +kernel)
  obtain ⟨d, restored, restored', hdiff, hrestored, hrestored', -, hsame, -⟩ :=
    replacing_reachable.isEmpty_diffSnapshots_iff hfirst hsecond
  have hcounts : (replacing.diffSnapshots 1 2).toOption
      = some ⟨1, 2, 0, 0, 0, 0, 0, 2, 1, 2, 1⟩ := by
    decide +kernel
  rw [hdiff] at hcounts
  obtain rfl := Option.some.inj hcounts
  have hunchanged : changedKeys replacing.snapshots[1].contents.edges
      replacing.snapshots[2].contents.edges = ∅ := by
    decide +kernel
  obtain ⟨-, -, -, hgraph⟩ := hsame ⟨rfl, rfl, rfl, rfl, rfl⟩
  exact ⟨replacing_reachable, _, _, _, restored, restored', hfirst, hsecond, hdiff,
    ⟨rfl, rfl, rfl, rfl, rfl⟩, hrestored, hrestored', hunchanged, hgraph.2 hunchanged⟩

/-- An edge that is replaced is not counted: the difference says that nothing has changed, but
restoring the two versions gives different edges. -/
theorem replaced_edge_is_not_counted : Reachable replacing ∧
    ∃ d restored restored', replacing.diffSnapshots 2 3 = .ok d ∧ d.IsEmpty ∧
      replacing.restoreSnapshot 2 = .ok restored ∧ replacing.restoreSnapshot 3 = .ok restored' ∧
      restored.allEdges = [argumentCall "\x7b\"argIndex\":0\x7d"] ∧
      restored'.allEdges = [argumentCall "\x7b\"argIndex\":1\x7d"] ∧
      restored.edges ≠ restored'.edges := by
  have hfirst := ExtTreeMap.getElem?_eq_some_getElem
    (show 2 ∈ replacing.snapshots by decide +kernel)
  have hsecond := ExtTreeMap.getElem?_eq_some_getElem
    (show 3 ∈ replacing.snapshots by decide +kernel)
  obtain ⟨d, hdiff, -⟩ := exists_diffSnapshots hfirst hsecond
  have hcounts : (replacing.diffSnapshots 2 3).toOption
      = some ⟨2, 3, 0, 0, 0, 0, 0, 2, 1, 2, 1⟩ := by
    decide +kernel
  rw [hdiff] at hcounts
  obtain rfl := Option.some.inj hcounts
  have hedges : replacing.snapshots[2].contents.edges.toList.map Prod.snd
      = [argumentCall "\x7b\"argIndex\":0\x7d"] := by
    decide +kernel
  have hedges' : replacing.snapshots[3].contents.edges.toList.map Prod.snd
      = [argumentCall "\x7b\"argIndex\":1\x7d"] := by
    decide +kernel
  refine ⟨replacing_reachable, _, _, _, hdiff, ⟨rfl, rfl, rfl, rfl, rfl⟩,
    map_snapshot_of_eq_some hfirst _, map_snapshot_of_eq_some hsecond _, hedges, hedges', ?_⟩
  intro hsame
  have hlists := congrArg (fun edges => edges.toList.map Prod.snd) hsame
  exact absurd (hedges.symm.trans (hlists.trans hedges')) (by decide)

end Graph

end CodeGraph
