import Mathlib
import CodeGraph.Proofs.Graph.Query

/-!
# Snapshots over a run

A snapshot keeps the contents of a graph under a version, and nothing that happens later
reaches what it keeps.  The invariant that carries this is `Keeps`: some version is in use,
the next version is above it, and its snapshot has given contents.  One operation can end it
only by deleting the version itself (`Keeps.perform`), so a run that does not delete it keeps
it (`Keeps.performAll`).

Versions come from a counter that no operation lowers.  In a reachable graph all versions in
use are below it (`Reachable.versionsBelow`), and the versions that a run gives out increase
(`pairwise_versionsGiven`).
-/

namespace CodeGraph.Graph

open Std (ExtTreeMap LawfulEqCmp)

/-! ### What operations do to the snapshots -/

/-- Two graphs with the same snapshots and the same next version. -/
def SameArchive (g g' : Graph) : Prop :=
  g'.snapshots = g.snapshots ∧ g'.nextVersion = g.nextVersion

lemma sameArchive_dropEdges (g : Graph) (keys : List EdgeKey) :
    SameArchive g (keys.foldl dropEdge g) :=
  List.foldlRecOn (motive := SameArchive g) keys dropEdge ⟨rfl, rfl⟩ fun _ h _ _ => h

lemma sameArchive_deleteNode (g : Graph) (id : NodeId) : SameArchive g (g.deleteNode id) := by
  unfold deleteNode
  split
  · exact ⟨rfl, rfl⟩
  · exact sameArchive_dropEdges _ _

/-- An operation that is not about snapshots leaves them alone. -/
lemma sameArchive_perform (g : Graph) {op : Operation} (hop : op.isAboutSnapshots = false) :
    SameArchive g (g.perform op) := by
  refine perform_keeps (P := SameArchive g) ?_ ?_ ?_ ?_ ?_ ?_ ⟨rfl, rfl⟩ hop
  · intro g' id h
    have hdelete := sameArchive_deleteNode g' id
    exact ⟨hdelete.1.trans h.1, hdelete.2.trans h.2⟩
  · exact fun _ _ h => h
  · exact fun _ _ h => h
  · exact fun _ _ h => h
  · exact fun _ _ _ h => h
  · exact fun _ _ h => h

/-- Where a version is not in use, an operation on its snapshot is refused. -/
lemma map_snapshot_eq_error {α : Type} {g : Graph} {version : Nat} (h : version ∉ g.snapshots)
    (f : Snapshot → α) : (g.snapshot version).map f = .error (.snapshotNotFound version) := by
  unfold snapshot
  rw [ExtTreeMap.getElem?_eq_none h]
  rfl

/-- Where a version is in use, an operation works on its snapshot. -/
lemma map_snapshot_of_eq_some {α : Type} {g : Graph} {version : Nat} {kept : Snapshot}
    (h : g.snapshots[version]? = some kept) (f : Snapshot → α) :
    (g.snapshot version).map f = .ok (f kept) := by
  unfold snapshot
  rw [h]
  rfl

/-- An operation on the snapshot of a version works where the version is in use; elsewhere
it leaves the graph as it was. -/
lemma unlessRefused_map_snapshot (g : Graph) (version : Nat) (f : Snapshot → Graph) :
    g.unlessRefused ((g.snapshot version).map f) = (g.snapshots[version]?.map f).getD g := by
  cases hkept : g.snapshots[version]? with
  | none =>
    have hnot : version ∉ g.snapshots := by simpa using hkept
    rw [map_snapshot_eq_error hnot]
    rfl
  | some kept =>
    rw [map_snapshot_of_eq_some hkept]
    rfl

/-- What one operation does to the snapshots: nothing, or it makes the next one, changes the
tags of one, or deletes one. -/
lemma perform_archive (g : Graph) (op : Operation) :
    SameArchive g (g.perform op) ∨
      (∃ tags now, op = .createSnapshot tags now) ∨
      (∃ version tags kept tags', op = .tagSnapshot version tags ∧
        g.snapshots[version]? = some kept ∧
        (g.perform op).snapshots = g.snapshots.insert version { kept with tags := tags' } ∧
        (g.perform op).nextVersion = g.nextVersion) ∨
      ∃ version, op = .deleteSnapshot version ∧
        (g.perform op).snapshots = g.snapshots.erase version ∧
        (g.perform op).nextVersion = g.nextVersion := by
  cases hop : op.isAboutSnapshots with
  | false => exact .inl (sameArchive_perform g hop)
  | true =>
    cases op with
    | createSnapshot tags now => exact .inr (.inl ⟨tags, now, rfl⟩)
    | tagSnapshot version tags =>
      have hperform := unlessRefused_map_snapshot g version fun kept =>
        { g with snapshots := g.snapshots.insert version { kept with
            tags := tags.foldl (fun all key value => all.insert key value) kept.tags } }
      change g.perform (.tagSnapshot version tags) = _ at hperform
      rw [hperform]
      cases hkept : g.snapshots[version]? with
      | none => exact .inl ⟨rfl, rfl⟩
      | some kept => exact .inr (.inr (.inl ⟨version, tags, kept, _, rfl, hkept, rfl, rfl⟩))
    | restoreSnapshot version =>
      have hperform := unlessRefused_map_snapshot g version fun kept =>
        { g.setContents kept.contents with unflushed := g.unflushed + 1 }
      change g.perform (.restoreSnapshot version) = _ at hperform
      rw [hperform]
      cases g.snapshots[version]? with
      | none => exact .inl ⟨rfl, rfl⟩
      | some kept => exact .inl ⟨rfl, rfl⟩
    | deleteSnapshot version =>
      have hperform := unlessRefused_map_snapshot g version fun _ =>
        { g with snapshots := g.snapshots.erase version }
      change g.perform (.deleteSnapshot version) = _ at hperform
      rw [hperform]
      cases g.snapshots[version]? with
      | none => exact .inl ⟨rfl, rfl⟩
      | some kept => exact .inr (.inr (.inr ⟨version, rfl, rfl, rfl⟩))
    | _ => simp [Operation.isAboutSnapshots] at hop

/-! ### What a version keeps -/

/-- A version that is in use keeps contents, and later versions will be greater. -/
structure Keeps (g : Graph) (version : Nat) (contents : Contents) : Prop where
  kept : ∃ snapshot, g.snapshots[version]? = some snapshot ∧ snapshot.contents = contents
  lt_next : version < g.nextVersion

/-- A snapshot keeps the contents that the graph has when it is made. -/
lemma keeps_createSnapshot (g : Graph) (tags : Tags) (now : Nat) :
    (g.createSnapshot tags now).2.Keeps (g.createSnapshot tags now).1 g.toContents where
  kept := ⟨⟨g.toContents, tags, now, g.nodes.size, g.edges.size⟩, by simp [createSnapshot], rfl⟩
  lt_next := Nat.lt_succ_self _

namespace Keeps

variable {g : Graph} {version : Nat} {contents : Contents}

/-- Only deleting a version ends what it keeps: a new snapshot goes under another version,
tags are not contents, and what is restored is a copy. -/
lemma perform (h : g.Keeps version contents) {op : Operation}
    (hop : op ≠ .deleteSnapshot version) : (g.perform op).Keeps version contents := by
  obtain ⟨⟨snapshot, hsnapshot, hcontents⟩, hlt⟩ := h
  rcases perform_archive g op with hsame | ⟨tags, now, rfl⟩ |
    ⟨tagged, tags, old, tags', -, hold, hsnapshots, hnext⟩ | ⟨deleted, rfl, hsnapshots, hnext⟩
  · refine ⟨⟨snapshot, ?_, hcontents⟩, ?_⟩
    · rw [hsame.1]
      exact hsnapshot
    · rw [hsame.2]
      exact hlt
  · have hne : g.nextVersion ≠ version := Nat.ne_of_gt hlt
    refine ⟨⟨snapshot, ?_, hcontents⟩, Nat.lt_succ_of_lt hlt⟩
    change (g.snapshots.insert g.nextVersion _)[version]? = some snapshot
    rw [ExtTreeMap.getElem?_insert, if_neg (by simpa using hne)]
    exact hsnapshot
  · have hlt' : version < (g.perform op).nextVersion := hnext ▸ hlt
    by_cases heq : tagged = version
    · subst heq
      have hkept : old = snapshot := Option.some.inj (hold.symm.trans hsnapshot)
      refine ⟨⟨{ old with tags := tags' }, ?_, ?_⟩, hlt'⟩
      · rw [hsnapshots]
        exact ExtTreeMap.getElem?_insert_self
      · rw [hkept]
        exact hcontents
    · refine ⟨⟨snapshot, ?_, hcontents⟩, hlt'⟩
      rw [hsnapshots, ExtTreeMap.getElem?_insert, if_neg (by simpa using heq)]
      exact hsnapshot
  · have hne : deleted ≠ version := fun heq => hop (by rw [heq])
    refine ⟨⟨snapshot, ?_, hcontents⟩, hnext ▸ hlt⟩
    rw [hsnapshots, ExtTreeMap.getElem?_erase, if_neg (by simpa using hne)]
    exact hsnapshot

/-- A run that does not delete a version keeps what it keeps. -/
lemma performAll (h : g.Keeps version contents) {ops : List Operation}
    (hops : .deleteSnapshot version ∉ ops) : (g.performAll ops).Keeps version contents := by
  refine List.foldlRecOn (motive := fun g => Keeps g version contents) ops Graph.perform h ?_
  intro g hg op hop
  refine hg.perform ?_
  rintro rfl
  exact hops hop

/-- What a version keeps can be restored: the contents are those it keeps, and nothing else
of the graph changes but the indexes and the count of changes. -/
lemma restoreSnapshot_eq_ok (h : g.Keeps version contents) :
    g.restoreSnapshot version
      = .ok { g.setContents contents with unflushed := g.unflushed + 1 } := by
  obtain ⟨⟨snapshot, hsnapshot, rfl⟩, -⟩ := h
  exact map_snapshot_of_eq_some hsnapshot _

end Keeps

/-! ### Versions -/

/-- The versions that are given out in the course of operations, in their order. -/
def versionsGiven (g : Graph) : List Operation → List Nat
  | [] => []
  | .createSnapshot tags now :: ops =>
    (g.createSnapshot tags now).1 :: (g.createSnapshot tags now).2.versionsGiven ops
  | op :: ops => (g.perform op).versionsGiven ops

/-- No operation lowers the next version. -/
lemma nextVersion_le_perform (g : Graph) (op : Operation) :
    g.nextVersion ≤ (g.perform op).nextVersion := by
  rcases perform_archive g op with hsame | ⟨tags, now, rfl⟩ | ⟨-, -, -, -, -, -, -, hnext⟩ |
    ⟨-, -, -, hnext⟩
  · exact Nat.le_of_eq hsame.2.symm
  · exact Nat.le_succ _
  · exact Nat.le_of_eq hnext.symm
  · exact Nat.le_of_eq hnext.symm

/-- What is given out in a run is not below the version that comes next at its beginning. -/
lemma nextVersion_le_of_mem {g : Graph} {ops : List Operation} {version : Nat}
    (h : version ∈ g.versionsGiven ops) : g.nextVersion ≤ version := by
  fun_induction versionsGiven g ops with
  | case1 => simp at h
  | case2 g tags now ops ih =>
    rcases List.mem_cons.1 h with rfl | h
    · exact Nat.le_refl _
    · exact Nat.le_of_succ_le (ih h)
  | case3 g op ops hop ih => exact (nextVersion_le_perform g op).trans (ih h)

/-- The versions that a run gives out increase. -/
lemma pairwise_versionsGiven (g : Graph) (ops : List Operation) :
    (g.versionsGiven ops).Pairwise (· < ·) := by
  fun_induction versionsGiven g ops with
  | case1 => exact List.Pairwise.nil
  | case2 g tags now ops ih =>
    refine List.pairwise_cons.2 ⟨fun version hversion => ?_, ih⟩
    exact nextVersion_le_of_mem hversion
  | case3 g op ops hop ih => exact ih

/-- All versions in use are below the next one. -/
def VersionsBelow (g : Graph) : Prop :=
  ∀ version ∈ g.snapshots, version < g.nextVersion

lemma VersionsBelow.perform {g : Graph} (h : g.VersionsBelow) (op : Operation) :
    (g.perform op).VersionsBelow := by
  intro version hversion
  have hle : g.nextVersion ≤ (g.perform op).nextVersion := nextVersion_le_perform g op
  rcases perform_archive g op with hsame | ⟨tags, now, rfl⟩ |
    ⟨tagged, _, old, _, -, hold, hsnapshots, -⟩ | ⟨deleted, -, hsnapshots, -⟩
  · rw [hsame.1] at hversion
    exact (h version hversion).trans_le hle
  · change version ∈ g.snapshots.insert g.nextVersion _ at hversion
    change version < g.nextVersion + 1
    rw [ExtTreeMap.mem_insert] at hversion
    rcases hversion with heq | hversion
    · have hnext : g.nextVersion = version := by simpa using heq
      omega
    · have hlt : version < g.nextVersion := h version hversion
      omega
  · rw [hsnapshots, ExtTreeMap.mem_insert] at hversion
    rcases hversion with heq | hversion
    · have htagged : tagged = version := by simpa using heq
      have hmem : tagged ∈ g.snapshots := (ExtTreeMap.getElem?_eq_some_iff.1 hold).1
      exact htagged ▸ (h tagged hmem).trans_le hle
    · exact (h version hversion).trans_le hle
  · rw [hsnapshots, ExtTreeMap.mem_erase] at hversion
    exact (h version hversion.2).trans_le hle

lemma versionsBelow_of_snapshots_eq_empty {g : Graph} (h : g.snapshots = ∅) :
    g.VersionsBelow := by
  intro version hversion
  simp [h] at hversion

/-- A graph read from an image has no snapshots. -/
lemma sameArchive_ofImage (location : Path) (image : Image) :
    SameArchive (empty none) (ofImage location image) := by
  have hnodes := addNodes_keeps (P := SameArchive (empty none)) (fun _ _ h => h)
    (g := { empty (some location) with fields := image.fields }) ⟨rfl, rfl⟩ image.nodes
  exact addEdges_keeps (P := SameArchive (empty none)) (fun _ _ h => h) hnodes image.edges true

/-- In a reachable graph all versions in use are below the next one. -/
lemma Reachable.versionsBelow {g : Graph} (h : Reachable g) : g.VersionsBelow := by
  induction h with
  | ephemeral => exact versionsBelow_of_snapshots_eq_empty rfl
  | created h =>
    have hempty := create_fst_eq_ok (congrArg Prod.fst h)
    exact versionsBelow_of_snapshots_eq_empty (by rw [hempty]; rfl)
  | opened h =>
    rcases load_eq_ok h with rfl | ⟨image, rfl⟩
    · exact versionsBelow_of_snapshots_eq_empty rfl
    · exact versionsBelow_of_snapshots_eq_empty (sameArchive_ofImage _ image).1
  | step op _ ih => exact ih.perform op

/-! ### Versions that are not in use -/

/-- How two snapshots differ is refused with the first version that is not in use. -/
lemma diffSnapshots_eq_error {g : Graph} {version : Nat} (h : version ∉ g.snapshots) :
    (∀ other, g.diffSnapshots version other = .error (.snapshotNotFound version)) ∧
      ∀ source ∈ g.snapshots,
        g.diffSnapshots source version = .error (.snapshotNotFound version) := by
  have hnone : g.snapshot version = .error (.snapshotNotFound version) := by
    unfold snapshot
    rw [ExtTreeMap.getElem?_eq_none h]
  refine ⟨fun other => ?_, fun source hsource => ?_⟩
  · unfold diffSnapshots
    rw [hnone]
    rfl
  · have hsome : g.snapshot source = .ok g.snapshots[source] := by
      unfold snapshot
      rw [ExtTreeMap.getElem?_eq_some_getElem hsource]
    unfold diffSnapshots
    rw [hnone, hsome]
    rfl

/-- An operation on a version that is not in use leaves the graph as it was. -/
lemma perform_eq_self {g : Graph} {version : Nat} (h : version ∉ g.snapshots) {op : Operation}
    (hop : op = .restoreSnapshot version ∨ op = .deleteSnapshot version ∨
      ∃ tags, op = .tagSnapshot version tags) : g.perform op = g := by
  have hunknown (f : Snapshot → Graph) : g.unlessRefused ((g.snapshot version).map f) = g := by
    rw [map_snapshot_eq_error h]
    rfl
  rcases hop with rfl | rfl | ⟨tags, rfl⟩
  · exact hunknown _
  · exact hunknown _
  · exact hunknown _

/-! ### Reachable graphs -/

/-- In every reachable graph a snapshot is exact and immutable: after any run that does not
delete its version, restoring the version gives back the nodes and edges of the moment when
it was made, with indexes that describe them by the fields declared at the end of the run.
The versions given out in a run increase and exceed all that are in use at its beginning.
An operation on a version that is not in use is refused and changes nothing. -/
theorem Reachable.snapshot_exact {g : Graph} (h : Reachable g) :
    (∀ (tags : Tags) (now : Nat) (ops : List Operation),
      .deleteSnapshot (g.createSnapshot tags now).1 ∉ ops →
      ∃ restored, ((g.createSnapshot tags now).2.performAll ops).restoreSnapshot
          (g.createSnapshot tags now).1 = .ok restored ∧
        restored.toContents = g.toContents ∧
        restored.fields = ((g.createSnapshot tags now).2.performAll ops).fields ∧
        Index.Describes restored.fields restored.index g.toContents) ∧
    (∀ ops : List Operation, (g.versionsGiven ops).Pairwise (· < ·) ∧
      ∀ version ∈ g.versionsGiven ops, ∀ used ∈ g.snapshots, used < version) ∧
    (∀ version ∉ g.snapshots,
      g.restoreSnapshot version = .error (.snapshotNotFound version) ∧
      (∀ tags, g.tagSnapshot version tags = .error (.snapshotNotFound version)) ∧
      g.deleteSnapshot version = .error (.snapshotNotFound version) ∧
      (∀ other, g.diffSnapshots version other = .error (.snapshotNotFound version)) ∧
      (∀ source ∈ g.snapshots,
        g.diffSnapshots source version = .error (.snapshotNotFound version)) ∧
      g.perform (.restoreSnapshot version) = g ∧
      (∀ tags, g.perform (.tagSnapshot version tags) = g) ∧
      g.perform (.deleteSnapshot version) = g) := by
  refine ⟨fun tags now ops hops => ?_, fun ops => ?_, fun version hversion => ?_⟩
  · have hkeeps := (keeps_createSnapshot g tags now).performAll hops
    exact ⟨_, hkeeps.restoreSnapshot_eq_ok, rfl, rfl,
      Index.describes_scan _ h.consistent.keyed⟩
  · refine ⟨pairwise_versionsGiven g ops, fun version hversion used hused => ?_⟩
    exact (h.versionsBelow used hused).trans_le (nextVersion_le_of_mem hversion)
  · obtain ⟨hdiff, hdiff'⟩ := diffSnapshots_eq_error hversion
    exact ⟨map_snapshot_eq_error hversion _, fun _ => map_snapshot_eq_error hversion _,
      map_snapshot_eq_error hversion _, hdiff, hdiff', perform_eq_self hversion (.inl rfl),
      fun tags => perform_eq_self hversion (.inr (.inr ⟨tags, rfl⟩)),
      perform_eq_self hversion (.inr (.inl rfl))⟩

/-- Tags are changed, another snapshot is made, an earlier one restored and deleted, a field
is declared, and in the end everything is removed. -/
def stirringRun : List Operation :=
  [.tagSnapshot 2 (Std.ExtTreeMap.empty.insert "commit" "abc"), .deleteNode (.ofNat 1),
    .createSnapshot ∅ 1, .restoreSnapshot 1, .deleteSnapshot 1,
    .declareFields [⟨"method", .text, none⟩], .clear]

theorem snapshot_exact_stirringRun : Reachable (ephemeral.performAll changesAndBack) ∧
    .deleteSnapshot 2 ∉ stirringRun ∧ 7 ∉ (ephemeral.performAll changesAndBack).snapshots ∧
    (∃ restored, (((ephemeral.performAll changesAndBack).createSnapshot ∅ 0).2.performAll
        stirringRun).restoreSnapshot 2 = .ok restored ∧
      restored.toContents = (ephemeral.performAll changesAndBack).toContents) ∧
    (ephemeral.performAll changesAndBack).versionsGiven (.createSnapshot ∅ 0 :: stirringRun)
      = [2, 3] ∧
    (ephemeral.performAll changesAndBack).restoreSnapshot 7 = .error (.snapshotNotFound 7) := by
  have hreach : Reachable (ephemeral.performAll changesAndBack) :=
    Reachable.ephemeral.performAll changesAndBack
  have hversion : ((ephemeral.performAll changesAndBack).createSnapshot ∅ 0).1 = 2 := by
    decide +kernel
  have hkept : .deleteSnapshot 2 ∉ stirringRun := by simp [stirringRun]
  have hunused : 7 ∉ (ephemeral.performAll changesAndBack).snapshots := by decide +kernel
  obtain ⟨hrestore, -, hrefused⟩ := hreach.snapshot_exact
  obtain ⟨restored, hrestored, hcontents, -⟩ := hrestore ∅ 0 stirringRun (by rwa [hversion])
  rw [hversion] at hrestored
  refine ⟨hreach, hkept, hunused, ⟨restored, hrestored, hcontents⟩, by decide +kernel, ?_⟩
  exact (hrefused 7 hunused).1

end CodeGraph.Graph
