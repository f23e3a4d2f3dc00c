import Mathlib
import CodeGraph.Traversal

/-!
# Depth first is recursion

A depth-first walk is told by recursion: to enter a node that was not met before is to list it
and, if it is not too deep, to enter its neighbours one after the other, one step deeper
(`preorder`).  One set of nodes met goes through all of this and through all start nodes.

The walk keeps the nodes still to be entered on a stack instead, where one node may stand several
times with different depths.  Two facts make both agree.  Nodes met already may be taken out of
the stack (`enterAll_filter`), so it does not matter when neighbours that were met are left out;
and nodes on top of the stack are entered, with all that they lead to, before anything below
them (`enterAll_append`).

`Search` is the walk as a loop, with a stack of its own for each start node and neighbours pushed
in reverse.  A step moves a node from what is ahead to what is listed (`Search.step_eq_some`), and
the search stops because a node is entered once and every other step shortens the work
(`Search.exists_stop`).
-/

namespace CodeGraph.Traversal

variable {next : NodeId → List NodeId} {maxDepth : Nat}

/-! ### The recursive walk -/

mutual

/-- Enters a node at a depth: the nodes listed on the way, and all nodes met afterwards. -/
def preorder (next : NodeId → List NodeId) (maxDepth depth : Nat) (id : NodeId) (seen : Seen) :
    List NodeId × Seen :=
  if id ∈ seen then ([], seen)
  else if depth < maxDepth then
    let below := preorderEach next maxDepth (depth + 1) (next id) (seen.insert id)
    (id :: below.1, below.2)
  else ([id], seen.insert id)
termination_by (maxDepth - depth, 0)

/-- Enters the nodes of a list at a depth, one after the other. -/
def preorderEach (next : NodeId → List NodeId) (maxDepth depth : Nat) (ids : List NodeId)
    (seen : Seen) : List NodeId × Seen :=
  match ids with
  | [] => ([], seen)
  | id :: ids =>
    let first := preorder next maxDepth depth id seen
    let later := preorderEach next maxDepth depth ids first.2
    (first.1 ++ later.1, later.2)
termination_by (maxDepth - depth, ids.length + 1)

end

/-! ### The stack -/

lemma enterAll_nil (seen : Seen) : enterAll next maxDepth [] seen = [] := by
  rw [enterAll]

lemma enterAll_of_mem {id : NodeId} {seen : Seen} (h : id ∈ seen) (depth : Nat)
    (stack : List (NodeId × Nat)) :
    enterAll next maxDepth ((id, depth) :: stack) seen = enterAll next maxDepth stack seen := by
  rw [enterAll, dif_pos h]

/-- The neighbours of a node that go on the stack when it is entered. -/
def above (next : NodeId → List NodeId) (maxDepth depth : Nat) (id : NodeId) (seen : Seen) :
    List (NodeId × Nat) :=
  if depth < maxDepth then
    ((next id).filter fun n => !seen.contains n).map fun n => (n, depth + 1)
  else []

lemma enterAll_of_not_mem {id : NodeId} {seen : Seen} (h : id ∉ seen) (depth : Nat)
    (stack : List (NodeId × Nat)) :
    enterAll next maxDepth ((id, depth) :: stack) seen
      = id :: enterAll next maxDepth
          (above next maxDepth depth id (seen.insert id) ++ stack) (seen.insert id) := by
  rw [enterAll, dif_neg h]
  rfl

lemma not_contains_iff {seen : Seen} {id : NodeId} : (!seen.contains id) = true ↔ id ∉ seen := by
  rw [Bool.not_eq_true', ← Bool.not_eq_true, Std.ExtTreeSet.contains_iff_mem]

lemma not_mem_of_mem_above {depth : Nat} {id : NodeId} {seen : Seen} {entry : NodeId × Nat}
    (h : entry ∈ above next maxDepth depth id seen) : entry.1 ∉ seen := by
  unfold above at h
  split at h
  · obtain ⟨n, hn, rfl⟩ := List.mem_map.1 h
    exact not_contains_iff.1 (List.mem_filter.1 hn).2
  · simp at h

/-- Nodes met already may be taken out of the stack. -/
lemma enterAll_filter {met seen : Seen} (hmet : ∀ id ∈ met, id ∈ seen)
    (stack : List (NodeId × Nat)) :
    enterAll next maxDepth (stack.filter (·.1 ∉ met)) seen
      = enterAll next maxDepth stack seen := by
  induction stack, seen using enterAll.induct next maxDepth with
  | case1 seen => rfl
  | case2 seen id depth stack hid ih =>
    rw [enterAll_of_mem hid, ← ih hmet]
    by_cases hout : id ∈ met
    · rw [List.filter_cons_of_neg (by simpa using hout)]
    · rw [List.filter_cons_of_pos (by simpa using hout), enterAll_of_mem hid]
  | case3 seen id depth stack hid seen' above' ih =>
    have hout : id ∉ met := fun h => hid (hmet id h)
    have hlater : ∀ id' ∈ met, id' ∈ seen.insert id :=
      fun id' h => Std.ExtTreeSet.mem_insert.2 (.inr (hmet id' h))
    have hkept : (above next maxDepth depth id (seen.insert id)).filter (·.1 ∉ met)
        = above next maxDepth depth id (seen.insert id) :=
      List.filter_eq_self.2 fun entry hentry =>
        by simpa using fun h => not_mem_of_mem_above hentry (hlater _ h)
    have hrest : enterAll next maxDepth ((above next maxDepth depth id (seen.insert id)
        ++ stack).filter (·.1 ∉ met)) (seen.insert id) = _ := ih hlater
    rw [List.filter_append, hkept] at hrest
    rw [List.filter_cons_of_pos (by simpa using hout), enterAll_of_not_mem hid,
      enterAll_of_not_mem hid, hrest]
    rfl

/-- It does not matter that neighbours met already are left out. -/
lemma enterAll_above {depth : Nat} (hdepth : depth < maxDepth) (id : NodeId) (seen : Seen)
    (stack : List (NodeId × Nat)) :
    enterAll next maxDepth (above next maxDepth depth id seen ++ stack) seen
      = enterAll next maxDepth ((next id).map (fun n => (n, depth + 1)) ++ stack) seen := by
  have hsame : (above next maxDepth depth id seen ++ stack).filter (·.1 ∉ seen)
      = ((next id).map (fun n => (n, depth + 1)) ++ stack).filter (·.1 ∉ seen) := by
    rw [List.filter_append, List.filter_append, above, if_pos hdepth, List.filter_map,
      List.filter_map, List.filter_filter]
    congr 2
    refine List.filter_congr fun n _ => ?_
    rw [Bool.eq_iff_iff, Bool.and_eq_true, not_contains_iff]
    simp
  rw [← enterAll_filter (fun _ h => h), hsame, enterAll_filter fun _ h => h]

/-- What is on top of the stack is entered, with all that it leads to, before anything below. -/
lemma enterAll_append (depth : Nat) (ids : List NodeId) (seen : Seen)
    (stack : List (NodeId × Nat)) :
    enterAll next maxDepth (ids.map (fun id => (id, depth)) ++ stack) seen
      = (preorderEach next maxDepth depth ids seen).1
        ++ enterAll next maxDepth stack (preorderEach next maxDepth depth ids seen).2 := by
  induction depth, ids, seen using @preorderEach.induct next maxDepth
    (fun depth id seen => ∀ stack,
      enterAll next maxDepth ((id, depth) :: stack) seen
        = (preorder next maxDepth depth id seen).1
          ++ enterAll next maxDepth stack (preorder next maxDepth depth id seen).2)
    generalizing stack with
  | case1 depth id seen hmet =>
    rw [enterAll_of_mem hmet, preorder, if_pos hmet]
    rfl
  | case2 depth id seen hnew hdepth ih =>
    rw [enterAll_of_not_mem hnew, enterAll_above hdepth, ih, preorder, if_neg hnew, if_pos hdepth]
    rfl
  | case3 depth id seen hnew hdepth =>
    rw [enterAll_of_not_mem hnew, above, if_neg hdepth, preorder, if_neg hnew, if_neg hdepth]
    rfl
  | case4 depth seen =>
    rw [preorderEach]
    rfl
  | case5 depth seen id ids first ihFirst ihLater =>
    rw [List.map_cons, List.cons_append, ihFirst, ihLater, preorderEach, List.append_assoc]

lemma depthFirst_eq_preorder (start : List NodeId) (maxDepth : Nat)
    (next : NodeId → List NodeId) :
    depthFirst start maxDepth next = (preorderEach next maxDepth 0 start ∅).1 := by
  have hstack : enterAll next maxDepth (start.map (fun id => (id, 0)) ++ []) ∅ = _ :=
    enterAll_append 0 start ∅ []
  rwa [enterAll_nil, List.append_nil, List.append_nil] at hstack

/-! ### The loop -/

/-- A search under way: the start nodes that it has not come to, the stack of nodes still to be
entered with their depths, the nodes met and the nodes listed. -/
structure Search where
  roots : List NodeId
  stack : List (NodeId × Nat)
  seen : Seen
  listed : List NodeId

/-- Puts those of some nodes that were not met before on a stack, one on top of the other. -/
def push (seen : Seen) (depth : Nat) (stack : List (NodeId × Nat)) (ids : List NodeId) :
    List (NodeId × Nat) :=
  ids.foldl (fun stack n => if n ∈ seen then stack else (n, depth) :: stack) stack

/-- Pushed in reverse, the first of some nodes is on top. -/
lemma push_reverse (seen : Seen) (depth : Nat) (stack : List (NodeId × Nat))
    (ids : List NodeId) : push seen depth stack ids.reverse
      = (ids.filter fun n => !seen.contains n).map (fun n => (n, depth)) ++ stack := by
  rw [push, List.foldl_reverse]
  induction ids with
  | nil => rfl
  | cons id ids ih =>
    rw [List.foldr_cons, ih, List.filter_cons]
    by_cases hmet : id ∈ seen
    · rw [if_pos hmet, if_neg fun h => not_contains_iff.1 h hmet]
    · rw [if_neg hmet, if_pos (not_contains_iff.2 hmet)]
      rfl

namespace Search

/-- A search before its first step. -/
def begin (start : List NodeId) : Search := ⟨start, [], ∅, []⟩

/-- One step: the node on top of the stack is dropped if it was met before, and otherwise listed
and its neighbours pushed in reverse; with an empty stack, the next start node is pushed. -/
def step (next : NodeId → List NodeId) (maxDepth : Nat) (s : Search) : Option Search :=
  match s.stack with
  | (id, depth) :: stack =>
    if id ∈ s.seen then some { s with stack }
    else
      let seen := s.seen.insert id
      some { s with
        seen
        listed := s.listed ++ [id]
        stack :=
          if depth < maxDepth then push seen (depth + 1) stack (next id).reverse else stack }
  | [] =>
    match s.roots with
    | root :: roots => some { s with roots, stack := [(root, 0)] }
    | [] => none

/-- What a search will list. -/
def ahead (next : NodeId → List NodeId) (maxDepth : Nat) (s : Search) : List NodeId :=
  enterAll next maxDepth (s.stack ++ s.roots.map fun id => (id, 0)) s.seen

/-- What is left to do: how many nodes can still be entered, and how much is waiting. -/
def work (s : Search) : Nat × Nat :=
  (NodeId.bound - s.seen.size, s.stack.length + 2 * s.roots.length)

/-- A step leaves less to do, and moves what it lists from what is ahead to what is listed. -/
lemma step_eq_some {s s' : Search} (h : s.step next maxDepth = some s') :
    Prod.Lex (· < ·) (· < ·) s'.work s.work ∧
      s'.listed ++ s'.ahead next maxDepth = s.listed ++ s.ahead next maxDepth := by
  obtain ⟨roots, stack, seen, listed⟩ := s
  unfold step at h
  match stack, roots with
  | (id, depth) :: stack, roots =>
    dsimp only at h
    split at h
    · next hmet =>
      obtain rfl := Option.some.inj h
      refine ⟨Prod.Lex.right _ ?_, ?_⟩
      · simp only [List.length_cons]
        omega
      · simp only [ahead, List.cons_append, enterAll_of_mem hmet]
    · next hnew =>
      obtain rfl := Option.some.inj h
      refine ⟨Prod.Lex.left _ _ ?_, ?_⟩
      · have hsize := size_insert_of_not_mem hnew
        have hle := size_le (seen.insert id)
        dsimp only
        omega
      · have hstack : (if depth < maxDepth then
              push (seen.insert id) (depth + 1) stack (next id).reverse else stack)
            = above next maxDepth depth id (seen.insert id) ++ stack := by
          rw [push_reverse, above]
          split <;> rfl
        simp only [ahead, List.cons_append, enterAll_of_not_mem hnew, hstack, List.append_assoc,
          List.nil_append]
  | [], root :: roots =>
    obtain rfl := Option.some.inj h
    refine ⟨Prod.Lex.right _ ?_, rfl⟩
    simp only [List.length_cons, List.length_nil]
    omega
  | [], [] => simp at h

/-- A search stops when nothing is ahead. -/
lemma ahead_of_step_eq_none {s : Search} (h : s.step next maxDepth = none) :
    s.ahead next maxDepth = [] := by
  obtain ⟨roots, stack, seen, listed⟩ := s
  unfold step at h
  match stack, roots with
  | (id, depth) :: stack, roots =>
    dsimp only at h
    split at h <;> simp at h
  | [], root :: roots => simp at h
  | [], [] => exact enterAll_nil seen

/-- One search comes from another by some steps. -/
abbrev Leads (next : NodeId → List NodeId) (maxDepth : Nat) : Search → Search → Prop :=
  Relation.ReflTransGen fun s s' => s.step next maxDepth = some s'

/-- What is listed and what is ahead are the same together after every step. -/
lemma Leads.listed_append_ahead {s s' : Search} (h : Leads next maxDepth s s') :
    s'.listed ++ s'.ahead next maxDepth = s.listed ++ s.ahead next maxDepth := by
  induction h with
  | refl => rfl
  | tail _ hstep ih => rw [(step_eq_some hstep).2, ih]

/-- Every search comes to an end. -/
lemma exists_stop (next : NodeId → List NodeId) (maxDepth : Nat) (s : Search) :
    ∃ s', Leads next maxDepth s s' ∧ s'.step next maxDepth = none := by
  match h : s.step next maxDepth with
  | none => exact ⟨s, .refl, h⟩
  | some s' =>
    obtain ⟨last, hleads, hstop⟩ := exists_stop next maxDepth s'
    exact ⟨last, .head h hleads, hstop⟩
termination_by s.work
decreasing_by exact (step_eq_some h).1

end Search

/-! ### What a depth-first walk lists -/

/-- A depth-first walk lists what the recursive walk lists, in the same order, and so does the
search with stacks: it stops, and has listed just this when it does. -/
theorem depthFirst_exact (start : List NodeId) (maxDepth : Nat) (next : NodeId → List NodeId) :
    depthFirst start maxDepth next = (preorderEach next maxDepth 0 start ∅).1 ∧
      ∃ last, Search.Leads next maxDepth (.begin start) last ∧
        last.step next maxDepth = none ∧
        last.listed = (preorderEach next maxDepth 0 start ∅).1 := by
  have hwalk := depthFirst_eq_preorder start maxDepth next
  obtain ⟨last, hleads, hstop⟩ := Search.exists_stop next maxDepth (.begin start)
  refine ⟨hwalk, last, hleads, hstop, ?_⟩
  have hlisted := hleads.listed_append_ahead
  rw [Search.ahead_of_step_eq_none hstop, List.append_nil] at hlisted
  exact hlisted.trans hwalk

end CodeGraph.Traversal
