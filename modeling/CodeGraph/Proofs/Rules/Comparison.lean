import Mathlib
import CodeGraph.Proofs.NodeId
import CodeGraph.Proofs.Rules.Anonymous
import CodeGraph.Proofs.Rules.Order
import CodeGraph.Proofs.Rules.Repeated

/-!
# Comparing a node with a constant

`neq` compares two texts.  A node is put into an atom by the decimal of its identifier, so a
constant excludes the node that it names if it is this decimal (`NodeId.isNumeric`), and excludes
nothing if it is the name from which an identifier was made (`text_ne_iff`).  A comparison of a
variable with a constant is asked last and filters what the other literals find
(`queryAnswers_neq`).
-/

namespace CodeGraph.Rules

/-! ### What stays bound -/

namespace Bindings

variable {a b r : Bindings} {x : String} {v : Value}

lemma extend?_eq_some : a.extend? b = some r ↔ a.agrees b ∧ a ∪ b = r := by
  simp [extend?]

/-- A binding that extends another one has its values. -/
lemma getElem?_of_extend? (hr : a.extend? b = some r) (hx : a[x]? = some v) : r[x]? = some v := by
  obtain ⟨hagrees, rfl⟩ := extend?_eq_some.1 hr
  rw [getElem?_union]
  cases hb : b[x]? with
  | none => exact hx
  | some w =>
    obtain rfl : v = w := agrees_iff.1 hagrees x w v hb hx
    rfl

/-- It has the values of the answer by which it extends it as well. -/
lemma getElem?_of_extend?_right (hr : a.extend? b = some r) (hx : b[x]? = some v) :
    r[x]? = some v := by
  obtain ⟨-, rfl⟩ := extend?_eq_some.1 hr
  rw [getElem?_union, hx]
  rfl

end Bindings

section Kept

variable {answers : Atom → List Bindings} {x : String} {v : Value}

lemma getElem?_of_mem_ask {l : Literal} {b r : Bindings} (hr : r ∈ ask answers l b)
    (hx : b[x]? = some v) : r[x]? = some v := by
  unfold ask at hr
  cases l with
  | positive atom =>
    obtain ⟨s, -, hs⟩ := List.mem_filterMap.1 hr
    exact Bindings.getElem?_of_extend? hs hx
  | negative atom =>
    dsimp only at hr
    split at hr
    · obtain rfl := List.mem_singleton.1 hr
      exact hx
    · cases hr

/-- Asking literals changes no value that a variable has already. -/
lemma getElem?_of_mem_askAll {ls : List Literal} {b r : Bindings}
    (hr : r ∈ askAll answers ls [b]) (hx : b[x]? = some v) : r[x]? = some v := by
  induction ls generalizing b with
  | nil =>
    obtain rfl := List.mem_singleton.1 hr
    exact hx
  | cons l ls ih =>
    rw [askAll, List.flatMap_singleton] at hr
    obtain ⟨c, hc, hrest⟩ := mem_askAll_iff_exists.1 hr
    exact ih hrest (getElem?_of_mem_ask hc hx)

end Kept

/-! ### Variables for nodes -/

/-- Where a built-in predicate binds a variable to a node. -/
def nodePlaces (predicate : String) : List Nat :=
  if predicate ∈ ["node", "type"] then [0]
  else if predicate = "edge" then [0, 1]
  else if predicate ∈ ["incoming", "path"] then [1]
  else []

/-- A variable stands where a built-in predicate binds it to a node, and not where it has a type. -/
structure Atom.BindsNode (x : String) (atom : Atom) : Prop where
  node : ∃ i ∈ nodePlaces atom.predicate, atom.args[i]? = some (.var x)
  type : ∀ i, typePlace? atom.predicate = some i → atom.args[i]? ≠ some (.var x)

/-- The first literal that is asked with a variable binds it to a node. -/
def BoundToNode (x : String) (ls : List Literal) : Prop :=
  ∃ before atom after, schedule ls = .ok (before ++ .positive atom :: after) ∧
    (∀ l ∈ before, x ∉ l.atom.vars) ∧ atom.BindsNode x

section Nodes

variable {g : Graph} {x : String} {s : Bindings}

lemma mem_builtins_of_mem_nodePlaces {predicate : String} {i : Nat}
    (hi : i ∈ nodePlaces predicate) : predicate ∈ builtins := by
  unfold nodePlaces at hi
  simp only [List.mem_cons, List.not_mem_nil, or_false] at hi
  split at hi
  · next h => rcases h with rfl | rfl <;> decide
  · split at hi
    · next h => subst h; decide
    · split at hi
      · next h => rcases h with rfl | rfl <;> decide
      · cases hi

lemma exists_node_of_mem_nodeAnswers {type : Term} (htype : type ≠ .var x)
    (hs : s ∈ nodeAnswers g (.var x) type) : ∃ id, s[x]? = some (.node id) := by
  have hsingle (id : NodeId) : (Bindings.single x (.node id))[x]? = some (.node id) :=
    Std.ExtTreeMap.getElem?_insert_self
  cases type with
  | const pattern =>
    obtain ⟨id, -, rfl⟩ := List.mem_map.1 hs
    exact ⟨id, hsingle id⟩
  | var y =>
    obtain ⟨⟨value, _⟩, -, hvalue⟩ := List.mem_flatMap.1 hs
    obtain ⟨id, -, rfl⟩ := List.mem_map.1 hvalue
    have hne : y ≠ x := fun h => htype (congrArg Term.var h)
    exact ⟨id, (Bindings.getElem?_insert_of_ne hne _ _).trans (hsingle id)⟩
  | anonymous =>
    obtain ⟨⟨value, _⟩, -, hvalue⟩ := List.mem_flatMap.1 hs
    obtain ⟨id, -, rfl⟩ := List.mem_map.1 hvalue
    exact ⟨id, hsingle id⟩

lemma exists_node_of_mem_edgeAnswers {incoming : Bool} {anchor other : Term} {type : Option Term}
    (hends : anchor = .var x ∨ other = .var x) (htype : type ≠ some (.var x))
    (hs : s ∈ edgeAnswers g incoming anchor other type) : ∃ id, s[x]? = some (.node id) := by
  obtain ⟨edge, -, hedge⟩ := List.mem_filterMap.1 hs
  rw [edgeBinding?_eq] at hedge
  obtain ⟨b, hb, rfl⟩ := Option.map_eq_some_iff.1 hedge
  obtain ⟨-, hkept, hother⟩ := unify_eq_some.1 hb
  have hnode : ∃ id, b[x]? = some (.node id) := by
    rcases hends with rfl | rfl
    · exact ⟨_, hkept Std.ExtTreeMap.getElem?_insert_self⟩
    · exact ⟨_, hother⟩
  obtain ⟨id, hid⟩ := hnode
  refine ⟨id, ?_⟩
  rcases type with _ | y | c | _
  · exact hid
  · have hne : y ≠ x := by
      rintro rfl
      exact htype rfl
    exact (Bindings.getElem?_insert_of_ne hne _ _).trans hid
  · exact hid
  · exact hid

lemma exists_node_of_mem_pathAnswers {source : Term} (hs : s ∈ pathAnswers g source (.var x)) :
    ∃ id, s[x]? = some (.node id) := by
  cases source with
  | const c =>
    obtain ⟨id, -, hunify⟩ := mem_pathAnswers.1 hs
    rw [unifyAll_singleton] at hunify
    exact ⟨id, (unify_eq_some.1 hunify).2.2⟩
  | var y => cases hs
  | anonymous => cases hs

/-- What a built-in predicate binds in the place of a node is a node. -/
lemma exists_node_of_mem_builtinAnswers {atom : Atom} (h : atom.BindsNode x)
    (hs : s ∈ builtinAnswers g atom) : ∃ id, s[x]? = some (.node id) := by
  obtain ⟨predicate, args⟩ := atom
  obtain ⟨⟨i, hi, hnode⟩, htype⟩ := h
  dsimp only at hi hnode htype
  refine builtinAnswers_rel
    (R := fun found _ => ∀ s ∈ found, ∃ id, s[x]? = some (.node id)) rfl (by simp)
    ?_ ?_ ?_ ?_ ?_ s hs
  · rintro id type _ _ rest _ hpredicate rfl - s hs
    rw [nodePlaces, if_pos hpredicate, List.mem_singleton] at hi
    subst hi
    obtain rfl : id = .var x := Option.some.inj hnode
    exact exists_node_of_mem_nodeAnswers
      (fun h => htype 1 (places_of_node hpredicate).2 (congrArg some h)) hs
  · rintro incoming anchor other _ _ rest _ hpredicate rfl - s hs
    have hends : anchor = .var x ∨ other = .var x := by
      have hplace : i = 0 ∨ i = 1 := by
        simp only [List.mem_cons, List.not_mem_nil, or_false] at hpredicate
        rcases hpredicate with rfl | rfl <;> simp [nodePlaces] at hi <;> omega
      rcases hplace with rfl | rfl
      · exact .inl (Option.some.inj hnode)
      · exact .inr (Option.some.inj hnode)
    have htype' : rest.head? ≠ some (.var x) := by
      intro h
      exact htype 2 (places_of_edge hpredicate).2 (List.head?_eq_getElem?.symm.trans h)
    exact exists_node_of_mem_edgeAnswers hends htype' hs
  · rintro source target _ _ rest _ rfl rfl - s hs
    obtain rfl : i = 1 := by simpa [nodePlaces] using hi
    obtain rfl : target = .var x := Option.some.inj hnode
    exact exists_node_of_mem_pathAnswers hs
  · rintro id name value _ _ _ rest _ rfl - - s hs
    simp [nodePlaces] at hi
  · intro holds hpredicate
    simp only [List.mem_cons, List.not_mem_nil, or_false] at hpredicate
    rcases hpredicate with rfl | rfl | rfl | rfl <;> simp [nodePlaces] at hi

lemma Atom.BindsNode.bind {b : Bindings} {atom : Atom} (h : atom.BindsNode x) (hx : x ∉ b) :
    (atom.bind b).BindsNode x := by
  obtain ⟨⟨i, hi, hnode⟩, htype⟩ := h
  refine ⟨⟨i, hi, ?_⟩, ?_⟩
  · simp only [Atom.bind, List.getElem?_map, hnode, Option.map_some, Term.bind,
      Bindings.not_mem_iff.1 hx]
  · intro j hj hvar
    rw [Atom.bind, List.getElem?_map] at hvar
    obtain ⟨term, hterm, hbound⟩ := Option.map_eq_some_iff.1 hvar
    exact htype j hj (hterm.trans (congrArg some (eq_var_of_bind hbound)))

/-- A variable that is bound to a node stays bound to it. -/
lemma BoundToNode.exists_node {program : List Rule} {ls : List Literal} (h : BoundToNode x ls)
    {found : List Bindings} (hfound : queryAnswers g program ls = .ok found) :
    ∀ b ∈ found, ∃ id, b[x]? = some (.node id) := by
  obtain ⟨before, atom, after, hordered, hbefore, hbinds⟩ := h
  obtain ⟨ordered, hordered', rfl⟩ := queryAnswers_eq_ok.1 hfound
  obtain rfl : before ++ .positive atom :: after = ordered :=
    Except.ok.inj (hordered.symm.trans hordered')
  intro r hr
  obtain ⟨c, hc, d, hd, hrest⟩ := mem_askAll_middle.1 hr
  have hnew : x ∉ c := not_mem_of_mem_askAll (fun hs _ => mem_vars_of_mem_answers hs) hbefore
    not_mem_empty hc
  obtain ⟨s, hs, hextend⟩ := List.mem_filterMap.1 hd
  have hbuiltin : builtins.contains (atom.bind c).predicate := by
    obtain ⟨i, hi, -⟩ := hbinds.node
    exact List.contains_iff_mem.2 (mem_builtins_of_mem_nodePlaces hi)
  have hs' : s ∈ builtinAnswers g (atom.bind c) := by
    rwa [← answers_of_builtin hbuiltin]
  obtain ⟨id, hid⟩ := exists_node_of_mem_builtinAnswers (hbinds.bind hnew) hs'
  exact ⟨id, getElem?_of_mem_askAll hrest (Bindings.getElem?_of_extend?_right hextend hid)⟩

end Nodes

/-! ### The comparison -/

/-- The literal `neq(x, c)`. -/
def differs (x c : String) : Literal :=
  .positive ⟨"neq", [.var x, .const c]⟩

/-- Whether a variable has a value, and one whose text is another one. -/
def Bindings.differs (x c : String) (b : Bindings) : Bool :=
  b[x]?.any (·.asText != c)

/-- The decimal of a node is another text than a constant exactly if the constant is no decimal or
the node is not the one that it names. -/
lemma text_ne_iff {id : NodeId} {c : String} :
    id.text ≠ c ↔ (NodeId.isNumeric c → id ≠ .parse c) := by
  constructor
  · rintro hne hnumeric rfl
    exact hne (NodeId.isNumeric_iff.1 hnumeric)
  · rintro hne rfl
    have hparse : NodeId.parse id.text = id := NodeId.parse_text id
    exact hne (NodeId.isNumeric_iff.2 (congrArg NodeId.text hparse)) hparse.symm

section Filter

variable {α : Type} {p q : α → Bool} {l : List α}

lemma flatMap_ite_singleton (p : α → Bool) (l : List α) :
    (l.flatMap fun a => if p a then [a] else []) = l.filter p := by
  induction l with
  | nil => rfl
  | cons a l ih => by_cases ha : p a <;> simp [List.flatMap_cons, ih, ha]

/-- Two properties leave the same members exactly if they agree on all of them. -/
lemma filter_eq_filter_iff : l.filter p = l.filter q ↔ ∀ a ∈ l, p a = q a := by
  constructor
  · intro heq a ha
    have hmem : a ∈ l.filter p ↔ a ∈ l.filter q := by rw [heq]
    rw [List.mem_filter, List.mem_filter, and_iff_right ha, and_iff_right ha] at hmem
    exact Bool.eq_iff_iff.2 hmem
  · exact fun hall => List.filter_congr hall

end Filter

section Query

variable {g : Graph} {program : List Rule} {ls : List Literal} {x c : String}

lemma isReady_differs {bound : List String} (h : x ∈ bound) : (differs x c).isReady bound := by
  simp [differs, Literal.isReady, inputPositions, Atom.arity, List.range_succ, Term.isBound, h]

lemma mem_of_isReady_differs {bound : List String} (h : (differs x c).isReady bound) :
    x ∈ bound := by
  simpa [differs, Literal.isReady, inputPositions, Atom.arity, List.range_succ, Term.isBound]
    using h

/-- The comparison keeps a binding or drops it. -/
lemma ask_differs (b : Bindings) :
    ask (goalAnswers g program) (differs x c) b = if b.differs x c then [b] else [] := by
  have hbuiltin : ∀ args, goalAnswers g program ⟨"neq", args⟩ =
      comparisonAnswers (fun a b => a != b) args :=
    fun args => answers_of_builtin (by simp [builtins])
  cases hx : b[x]? with
  | none =>
    simp [ask, differs, Literal.atom, Atom.bind, Term.bind, hx, hbuiltin, comparisonAnswers,
      Bindings.differs]
  | some v =>
    have hbound : (differs x c).atom.bind b = ⟨"neq", [.const v.asText, .const c]⟩ := by
      simp [differs, Literal.atom, Atom.bind, Term.bind, hx]
    have hdiffers : b.differs x c = (v.asText != c) := by
      rw [Bindings.differs, hx]
      rfl
    have hask : ask (goalAnswers g program) (differs x c) b =
        (comparisonAnswers (fun a b => a != b) [.const v.asText, .const c]).filterMap b.extend? := by
      rw [← hbuiltin, ← hbound]
      rfl
    rw [hask, hdiffers, comparisonAnswers]
    by_cases hv : v.asText != c
    · rw [if_pos hv, if_pos hv]
      exact List.filterMap_cons_some (Bindings.extend?_empty b)
    · rw [if_neg hv, if_neg hv]
      rfl

/-- A comparison with a variable that the other literals bind comes last. -/
lemma schedule_append_differs (hx : x ∈ positiveVariables ls) {ordered : List Literal}
    (h : schedule ls = .ok ordered) :
    schedule (ls ++ [differs x c]) = .ok (ordered ++ [differs x c]) :=
  scheduleFrom_append_singleton (isReady_differs (by simpa using hx)) h

/-- Nothing waits for a comparison, so without it the others can be scheduled. -/
lemma isOk_schedule_of_append_differs
    (h : ∃ ordered, schedule (ls ++ [differs x c]) = .ok ordered) :
    ∃ ordered, schedule ls = .ok ordered := by
  obtain ⟨ordered, hordered⟩ := h
  obtain ⟨hperm, horder⟩ := schedule_eq_ok hordered
  have hmem : differs x c ∈ ordered := hperm.symm.subset (by simp)
  obtain ⟨before, after, rfl⟩ := List.append_of_mem hmem
  obtain ⟨hbefore, hready, hafter⟩ := horder.of_append
  have hx : x ∈ [] ++ positiveVariables before := mem_of_isReady_differs hready
  have hrest : InOrder [] (before ++ after) := by
    apply hbefore.append
    apply hafter.mono
    intro y hy
    rcases List.mem_append.1 hy with hy | hy
    · exact hy
    · obtain rfl : y = x := by simpa [Atom.vars, Term.var?] using hy
      exact hx
  have hperm' : (before ++ after).Perm ls := by
    refine (List.perm_cons (differs x c)).1 ?_
    exact List.perm_middle.symm.trans (hperm.trans (List.perm_append_singleton _ _))
  exact scheduleFrom_isOk hperm' hrest

lemma queryAnswers_append_differs (hx : x ∈ positiveVariables ls) {found : List Bindings}
    (hfound : queryAnswers g program ls = .ok found) :
    queryAnswers g program (ls ++ [differs x c]) = .ok (found.filter (·.differs x c)) := by
  obtain ⟨ordered, hordered, rfl⟩ := queryAnswers_eq_ok.1 hfound
  refine queryAnswers_eq_ok.2 ⟨_, schedule_append_differs hx hordered, ?_⟩
  rw [askAll_append, askAll, askAll, ← flatMap_ite_singleton]
  exact List.flatMap_congr fun b _ => ask_differs b

/-- Comparing a variable with a constant refuses no query and accepts none, and keeps those answers
in which the variable has another text.  If the variable is bound to a node, these are the answers
in which it is not the node that the constant names exactly if the constant is the decimal of this
node or no answer has it. -/
theorem queryAnswers_neq (g : Graph) (program : List Rule) (ls : List Literal) (x c : String)
    (hx : x ∈ positiveVariables ls) :
    let asked := queryAnswers g program (ls ++ [differs x c])
    ((∃ found, asked = .ok found) ↔ ∃ found, queryAnswers g program ls = .ok found) ∧
    ∀ found, queryAnswers g program ls = .ok found →
      asked = .ok (found.filter (·.differs x c)) ∧
      (BoundToNode x ls → ∀ b ∈ found, ∃ id, b[x]? = some (.node id)) ∧
      ((∀ b ∈ found, ∃ id, b[x]? = some (.node id)) →
        (asked = .ok (found.filter fun b => b[x]? ≠ some (.node (.parse c))) ↔
          NodeId.isNumeric c ∨ ∀ b ∈ found, b[x]? ≠ some (.node (.parse c)))) := by
  intro asked
  constructor
  · constructor
    · intro haccepted
      apply exists_queryAnswers_eq_ok.2
      exact isOk_schedule_of_append_differs (exists_queryAnswers_eq_ok.1 haccepted)
    · rintro ⟨found, hfound⟩
      exact ⟨_, queryAnswers_append_differs hx hfound⟩
  intro found hfound
  have hasked : asked = .ok (found.filter (·.differs x c)) := queryAnswers_append_differs hx hfound
  refine ⟨hasked, fun hnode => hnode.exists_node hfound, ?_⟩
  intro hnodes
  have hdiffers : ∀ b ∈ found, b.differs x c = decide (b[x]? ≠ some (.node (.parse c))) ↔
      (NodeId.isNumeric c ∨ b[x]? ≠ some (.node (.parse c))) := by
    intro b hb
    obtain ⟨id, hid⟩ := hnodes b hb
    have htext : b.differs x c = true ↔ id.text ≠ c := by
      simp [Bindings.differs, hid, Value.asText]
    rw [Bool.eq_iff_iff, htext, text_ne_iff, decide_eq_true_eq, hid]
    simp only [ne_eq, Option.some.injEq, Value.node.injEq]
    tauto
  rw [hasked, Except.ok.injEq, filter_eq_filter_iff]
  constructor
  · intro hall
    by_cases hnumeric : NodeId.isNumeric c
    · exact .inl hnumeric
    · right
      intro b hb
      exact ((hdiffers b hb).1 (hall b hb)).resolve_left hnumeric
  · intro hexact b hb
    apply (hdiffers b hb).2
    rcases hexact with hnumeric | hnone
    · exact .inl hnumeric
    · exact .inr (hnone b hb)

end Query

/-- Two functions, one called by a number and one by a name. -/
def twoFunctions : Graph :=
  Graph.ephemeral.performAll [
    .addNodes [Graph.bareNode 1 (some "FUNCTION"),
      { Graph.bareNode 0 (some "FUNCTION") with id := .parse "n1" }]]

lemma boundToNode_isFunction : BoundToNode "X" [isFunction (.var "X")] := by
  refine ⟨[], ⟨"node", [.var "X", .const "FUNCTION"]⟩, [], ?_, by simp, ⟨0, by decide, rfl⟩, ?_⟩
  · rw [schedule, scheduleFrom_cons_of_isReady rfl, scheduleFrom]
    rfl
  · intro i hi
    obtain rfl : 1 = i := Option.some.inj hi
    decide

/-- The function with a number is excluded by its decimal. -/
theorem queryAnswers_neq_twoFunctions :
    let found := queryAnswers twoFunctions [] [isFunction (.var "X")]
    found = .ok [.single "X" (.node (.parse "1")), .single "X" (.node (.parse "n1"))] ∧
      queryAnswers twoFunctions [] [isFunction (.var "X"), differs "X" "1"] =
        .ok ([.single "X" (.node (.parse "1")), .single "X" (.node (.parse "n1"))].filter
          fun b => b["X"]? ≠ some (.node (.parse "1"))) := by
  intro found
  have hfound : found =
      .ok [.single "X" (.node (.parse "1")), .single "X" (.node (.parse "n1"))] := by
    decide +kernel
  obtain ⟨-, hasked⟩ :=
    queryAnswers_neq twoFunctions [] [isFunction (.var "X")] "X" "1" (by decide)
  obtain ⟨-, hnode, hexact⟩ := hasked _ hfound
  exact ⟨hfound, (hexact (hnode boundToNode_isFunction)).2 (.inl (by decide +kernel))⟩

/-- But the function with a name is not excluded by this name. -/
theorem name_excludes_nothing :
    BoundToNode "X" [isFunction (.var "X")] ∧
    queryAnswers twoFunctions [] [isFunction (.var "X"), differs "X" "n1"] =
      .ok [.single "X" (.node (.parse "1")), .single "X" (.node (.parse "n1"))] := by
  refine ⟨boundToNode_isFunction, ?_⟩
  decide +kernel

end CodeGraph.Rules
