import Mathlib
import CodeGraph.Proofs.Rules.Forget

/-!
# Repeated variables

A variable that stands at two places of a built-in atom should have one value at both.  The second
end of an edge is compared with the first (`edgeBinding?_ends`), so there the answers are those to
the atom with two variables in which these have equal values, merged (`Bindings.merge?`).  The type
of a node or an edge is put into the answer without a comparison (`putType`), so there the answers
are those to the atom with two variables with the type moved (`Bindings.move`).
-/

namespace CodeGraph.Rules

namespace Bindings

variable {b : Bindings} {x y : String} {v w : Value}

/-- A binding of two variables with one of them left, if their values are equal. -/
def merge? (x y : String) (b : Bindings) : Option Bindings :=
  match b[x]?, b[y]? with
  | some v, some w => if v = w then some (b.forget y) else none
  | _, _ => none

/-- A binding with the value of one variable moved to another, whatever value that has. -/
def move (y x : String) (b : Bindings) : Bindings :=
  match b[y]? with
  | some w => (b.forget y).insert x w
  | none => b

lemma getElem?_insert_of_ne (hne : y ≠ x) (b : Bindings) (v : Value) :
    (b.insert y v)[x]? = b[x]? := by
  rw [Std.ExtTreeMap.getElem?_insert, if_neg]
  simpa using hne

lemma move_insert (hy : y ∉ b) (x : String) (v : Value) :
    move y x (b.insert y v) = b.insert x v := by
  rw [move, Std.ExtTreeMap.getElem?_insert_self]
  dsimp only
  rw [forget_insert_self, forget_of_not_mem hy]

lemma merge?_insert_of_ne {z : String} (hx : z ≠ x) (hy : z ≠ y) (b : Bindings) (v : Value) :
    merge? x y (b.insert z v) = (merge? x y b).map (·.insert z v) := by
  rw [merge?, merge?, getElem?_insert_of_ne hx, getElem?_insert_of_ne hy]
  cases b[x]? with
  | none => rfl
  | some v' =>
    cases b[y]? with
    | none => rfl
    | some w =>
      by_cases hvw : v' = w
      · simp [hvw, forget_insert_of_ne hy]
      · simp [hvw]

lemma merge?_single (hxy : x ≠ y) (v w : Value) :
    merge? x y ((single x v).insert y w) = if v = w then some (single x v) else none := by
  have hx : (single x v)[x]? = some v := Std.ExtTreeMap.getElem?_insert_self
  rw [merge?, getElem?_insert_of_ne hxy.symm, Std.ExtTreeMap.getElem?_insert_self, hx]
  dsimp only
  rw [forget_insert_self, forget_single_of_ne hxy]

end Bindings

/-! ### Two terms of one atom -/

/-- How many terms a built-in predicate reads. -/
def termsRead (predicate : String) : Nat :=
  if predicate ∈ ["edge", "incoming", "attr"] then 3 else 2

/-- Where a built-in predicate has a type. -/
def typePlace? (predicate : String) : Option Nat :=
  if predicate ∈ ["node", "type"] then some 1
  else if predicate ∈ ["edge", "incoming"] then some 2
  else none

section Builtins

variable {g : Graph} {x y : String}

lemma merge?_putType {type : Option Term} (hx : type ≠ some (.var x)) (hy : type ≠ some (.var y))
    (value : String) (b : Bindings) : Bindings.merge? x y (putType type value b) =
      (Bindings.merge? x y b).map (putType type value) := by
  rcases type with _ | (z | c | _)
  · exact Option.map_id'.symm
  · exact Bindings.merge?_insert_of_ne (by simpa using hx) (by simpa using hy) b _
  · exact Option.map_id'.symm
  · exact Option.map_id'.symm

/-- The second of two equal variables for the ends of an edge is compared with the first. -/
lemma edgeBinding?_ends (hxy : x ≠ y) {type : Option Term} (hx : type ≠ some (.var x))
    (hy : type ≠ some (.var y)) (incoming : Bool) (edge : Edge) :
    edgeBinding? incoming (.var x) (.var x) type edge =
      (edgeBinding? incoming (.var x) (.var y) type edge).bind (Bindings.merge? x y) := by
  set anchor := anchorOf incoming edge with hanchor
  set other := otherOf incoming edge with hother
  have hsame : unify (.single x (.node anchor)) (.var x, .node other) =
      if Value.node anchor = .node other then some (.single x (.node anchor)) else none := by
    simp [unify, Bindings.getElem?_single]
  have hapart : unify (.single x (.node anchor)) (.var y, .node other) =
      some ((Bindings.single x (.node anchor)).insert y (.node other)) := by
    simp [unify, Bindings.getElem?_single, hxy]
  rw [edgeBinding?_eq, edgeBinding?_eq, ← hanchor, ← hother, anchorBinding, hsame, hapart,
    Option.map_some, Option.bind_some, merge?_putType hx hy, Bindings.merge?_single hxy]

/-- The type of an edge is put on top of what its ends gave to the same variable. -/
lemma edgeBinding?_type {anchor other : Term} (ha : anchor ≠ .var y) (ho : other ≠ .var y)
    (incoming : Bool) (edge : Edge) :
    edgeBinding? incoming anchor other (some (.var x)) edge =
      (edgeBinding? incoming anchor other (some (.var y)) edge).map (Bindings.move y x) := by
  rw [edgeBinding?_eq, edgeBinding?_eq, Option.map_map]
  refine Option.map_congr fun b hb => (Bindings.move_insert (fun hy => ?_) x _).symm
  exact (eq_var_of_unify hb hy).elim (fun h => ha (eq_var_of_mem_anchorBinding h)) ho

lemma edgeAnswers_ends (hxy : x ≠ y) {type : Option Term} (hx : type ≠ some (.var x))
    (hy : type ≠ some (.var y)) (incoming : Bool) :
    edgeAnswers g incoming (.var x) (.var x) type =
      (edgeAnswers g incoming (.var x) (.var y) type).filterMap (Bindings.merge? x y) := by
  rw [edgeAnswers, edgeAnswers, List.filterMap_filterMap]
  exact List.filterMap_congr fun edge _ => edgeBinding?_ends hxy hx hy incoming edge

lemma edgeAnswers_type {anchor other : Term} (ha : anchor ≠ .var y) (ho : other ≠ .var y)
    (incoming : Bool) : edgeAnswers g incoming anchor other (some (.var x)) =
      (edgeAnswers g incoming anchor other (some (.var y))).map (.move y x) := by
  have hedges : anchoredEdges g incoming anchor (some (.var x)) =
      anchoredEdges g incoming anchor (some (.var y)) := by
    rw [anchoredEdges_eq, anchoredEdges_eq]
    rfl
  rw [edgeAnswers, edgeAnswers, hedges, List.map_filterMap]
  exact List.filterMap_congr fun edge _ => edgeBinding?_type ha ho incoming edge

lemma nodeAnswers_type (hxy : x ≠ y) :
    nodeAnswers g (.var x) (.var x) = (nodeAnswers g (.var x) (.var y)).map (.move y x) := by
  simp only [nodeAnswers, List.map_flatMap, List.map_map]
  refine List.flatMap_congr fun pair _ => List.map_congr_left fun found _ => ?_
  refine (Bindings.move_insert (fun hy => hxy ?_) x _).symm
  exact (Bindings.mem_single.1 hy).symm

variable {predicate : String} {args : List Term} {i j : Nat}

lemma places_of_node (h : predicate ∈ ["node", "type"]) :
    termsRead predicate = 2 ∧ typePlace? predicate = some 1 := by
  simp only [List.mem_cons, List.not_mem_nil, or_false] at h
  obtain rfl | rfl := h <;> decide

lemma places_of_edge (h : predicate ∈ ["edge", "incoming"]) :
    termsRead predicate = 3 ∧ typePlace? predicate = some 2 := by
  simp only [List.mem_cons, List.not_mem_nil, or_false] at h
  obtain rfl | rfl := h <;> decide

lemma places_of_comparison
    (h : predicate ∈ ["neq", "starts_with", "not_starts_with", "string_contains"]) :
    termsRead predicate = 2 ∧ typePlace? predicate = none := by
  simp only [List.mem_cons, List.not_mem_nil, or_false] at h
  obtain rfl | rfl | rfl | rfl := h <;> decide

/-- Neither the node nor the name of an attribute may be a variable. -/
lemma attrAnswers_of_var {id name value : Term} (h : id = .var x ∨ name = .var x) :
    attrAnswers g id name value = [] := by
  obtain rfl | rfl := h
  · rfl
  · cases id <;> rfl

lemma comparisonAnswers_of_var {holds : String → String → Bool} (h : args[0]? = some (.var x)) :
    comparisonAnswers holds args = [] := by
  cases args with
  | nil => rfl
  | cons term terms =>
    obtain rfl : term = .var x := Option.some.inj h
    rfl

/-- Two equal variables in places that are read and have no type are compared. -/
lemma builtinAnswers_merge (hij : i < j) (hi : args[i]? = some (.var x))
    (hj : args[j]? = some (.var x)) (hy : .var y ∉ args) (hread : j < termsRead predicate)
    (htype : ∀ k, typePlace? predicate = some k → args[k]? ≠ some (.var x)) :
    builtinAnswers g ⟨predicate, args⟩ =
      (builtinAnswers g ⟨predicate, args.set j (.var y)⟩).filterMap (Bindings.merge? x y) := by
  have hxy : x ≠ y := fun h => hy (h ▸ List.mem_of_getElem? hi)
  have hi' : (args.set j (.var y))[i]? = some (.var x) :=
    (List.getElem?_set_ne hij.ne').trans hi
  refine builtinAnswers_rel
    (R := fun found found' => found = found'.filterMap (Bindings.merge? x y))
    (List.length_set).symm rfl ?_ ?_ ?_ ?_ ?_
  · intro id type id' type' rest rest' hpredicate hargs hargs'
    obtain ⟨hterms, hplace⟩ := places_of_node hpredicate
    obtain rfl : j = 1 := by omega
    exact absurd hj (htype 1 hplace)
  · intro incoming anchor other anchor' other' rest rest' hpredicate hargs hargs'
    obtain ⟨hterms, hplace⟩ := places_of_edge hpredicate
    have hne : j ≠ 2 := fun h => htype 2 hplace (h ▸ hj)
    obtain rfl : j = 1 := by omega
    obtain rfl : i = 0 := by omega
    subst hargs
    obtain rfl : anchor = .var x := Option.some.inj hi
    obtain rfl : other = .var x := Option.some.inj hj
    obtain ⟨rfl, rfl, rfl⟩ : .var x = anchor' ∧ .var y = other' ∧ rest = rest' := by
      simpa using hargs'
    refine edgeAnswers_ends hxy (fun h => htype 2 hplace ?_) (fun h => hy ?_) incoming
    · rwa [List.head?_eq_getElem?] at h
    · simp [List.mem_of_mem_head? h]
  · intro source target source' target' rest rest' hpredicate hargs hargs'
    subst hpredicate hargs
    obtain rfl : j = 1 := by
      have hterms : termsRead "path" = 2 := by decide
      omega
    obtain rfl : i = 0 := by omega
    obtain rfl : source = .var x := Option.some.inj hi
    rw [hargs'] at hi'
    obtain rfl : source' = .var x := Option.some.inj hi'
    rfl
  · intro id name value id' name' value' rest rest' hpredicate hargs hargs'
    subst hpredicate hargs
    have hterms : termsRead "attr" = 3 := by decide
    rw [hargs'] at hi'
    have hvar {t u v : Term} {rest : List Term} (h : (t :: u :: v :: rest)[i]? = some (.var x)) :
        t = .var x ∨ u = .var x := by
      obtain rfl | rfl : i = 0 ∨ i = 1 := by omega
      · exact .inl (Option.some.inj h)
      · exact .inr (Option.some.inj h)
    rw [attrAnswers_of_var (hvar hi), attrAnswers_of_var (hvar hi')]
    rfl
  · intro holds hpredicate
    obtain ⟨hterms, -⟩ := places_of_comparison hpredicate
    obtain rfl : j = 1 := by omega
    obtain rfl : i = 0 := by omega
    rw [comparisonAnswers_of_var hi, comparisonAnswers_of_var hi']
    rfl

/-- What stands beyond the terms that are read makes no difference. -/
lemma builtinAnswers_set (hread : termsRead predicate ≤ j) (term : Term) :
    builtinAnswers g ⟨predicate, args⟩ = builtinAnswers g ⟨predicate, args.set j term⟩ := by
  refine builtinAnswers_rel (R := Eq) (List.length_set).symm rfl ?_ ?_ ?_ ?_ ?_
  · intro id type id' type' rest rest' hpredicate hargs hargs'
    rw [(places_of_node hpredicate).1] at hread
    obtain ⟨k, rfl⟩ := Nat.exists_eq_add_of_le' hread
    subst hargs
    obtain ⟨rfl, rfl, -⟩ : id = id' ∧ type = type' ∧ _ := by simpa using hargs'
    rfl
  · intro incoming anchor other anchor' other' rest rest' hpredicate hargs hargs'
    rw [(places_of_edge hpredicate).1] at hread
    obtain ⟨k, rfl⟩ := Nat.exists_eq_add_of_le' hread
    subst hargs
    obtain ⟨rfl, rfl, rfl⟩ : anchor = anchor' ∧ other = other' ∧ rest.set (k + 1) term = rest' := by
      simpa using hargs'
    cases rest <;> rfl
  · intro source target source' target' rest rest' hpredicate hargs hargs'
    subst hpredicate hargs
    obtain ⟨k, rfl⟩ : ∃ k, j = k + 2 := Nat.exists_eq_add_of_le' hread
    obtain ⟨rfl, rfl, -⟩ : source = source' ∧ target = target' ∧ _ := by simpa using hargs'
    rfl
  · intro id name value id' name' value' rest rest' hpredicate hargs hargs'
    subst hpredicate hargs
    obtain ⟨k, rfl⟩ : ∃ k, j = k + 3 := Nat.exists_eq_add_of_le' hread
    obtain ⟨rfl, rfl, rfl, -⟩ : id = id' ∧ name = name' ∧ value = value' ∧ _ := by
      simpa using hargs'
    rfl
  · intro holds hpredicate
    rw [(places_of_comparison hpredicate).1] at hread
    obtain ⟨k, rfl⟩ := Nat.exists_eq_add_of_le' hread
    match args with
    | [] | [_] => rfl
    | a :: b :: _ => cases a <;> cases b <;> rfl

/-- A variable in the place of the type takes the type, whatever other places have it. -/
lemma builtinAnswers_move (hij : i < j) (hi : args[i]? = some (.var x))
    (hj : args[j]? = some (.var x)) (hy : .var y ∉ args) (hplace : typePlace? predicate = some j) :
    builtinAnswers g ⟨predicate, args⟩ =
      (builtinAnswers g ⟨predicate, args.set j (.var y)⟩).map (.move y x) := by
  have hxy : x ≠ y := fun h => hy (h ▸ List.mem_of_getElem? hi)
  refine builtinAnswers_rel (R := fun found found' => found = found'.map (.move y x))
    (List.length_set).symm rfl ?_ ?_ ?_ ?_ ?_
  · intro id type id' type' rest rest' hpredicate hargs hargs'
    obtain rfl : 1 = j := Option.some.inj ((places_of_node hpredicate).2.symm.trans hplace)
    obtain rfl : i = 0 := by omega
    subst hargs
    obtain rfl : id = .var x := Option.some.inj hi
    obtain rfl : type = .var x := Option.some.inj hj
    obtain ⟨rfl, rfl, -⟩ : .var x = id' ∧ .var y = type' ∧ _ := by simpa using hargs'
    exact nodeAnswers_type hxy
  · intro incoming anchor other anchor' other' rest rest' hpredicate hargs hargs'
    obtain rfl : 2 = j := Option.some.inj ((places_of_edge hpredicate).2.symm.trans hplace)
    subst hargs
    cases rest with
    | nil => simp at hj
    | cons type rest =>
      obtain rfl : type = .var x := Option.some.inj hj
      obtain ⟨rfl, rfl, rfl⟩ : anchor = anchor' ∧ other = other' ∧ .var y :: rest = rest' := by
        simpa using hargs'
      exact edgeAnswers_type (fun h => hy (by simp [h])) (fun h => hy (by simp [h])) incoming
  · intro source target source' target' rest rest' hpredicate
    subst hpredicate
    simp [typePlace?] at hplace
  · intro id name value id' name' value' rest rest' hpredicate
    subst hpredicate
    simp [typePlace?] at hplace
  · intro holds hpredicate
    simp [(places_of_comparison hpredicate).2] at hplace

end Builtins

/-! ### Atoms -/

/-- Two places of one variable in a built-in atom, compared with the atom that has another variable
in the later one.  If both are read and no type is asked for by the variable, the answers are those
in which both variables have one value.  A place that is not read does not matter.  A type takes
the place of the other value without being compared with it. -/
theorem answers_repeated (g : Graph) (program : List Rule) (depth : Nat) (predicate : String)
    (args : List Term) (i j : Nat) (x y : String) (hbuiltin : predicate ∈ builtins) (hij : i < j)
    (hi : args[i]? = some (.var x)) (hj : args[j]? = some (.var x)) (hy : .var y ∉ args) :
    let answered (args : List Term) := answers g program depth ⟨predicate, args⟩
    (j < termsRead predicate →
      (∀ k, typePlace? predicate = some k → args[k]? ≠ some (.var x)) →
        answered args = (answered (args.set j (.var y))).filterMap (Bindings.merge? x y)) ∧
    (termsRead predicate ≤ j → answered args = answered (args.set j (.var y))) ∧
    (typePlace? predicate = some j →
      answered args = (answered (args.set j (.var y))).map (.move y x)) := by
  intro answered
  have hanswered (args : List Term) : answered args = builtinAnswers g ⟨predicate, args⟩ :=
    answers_of_builtin (List.contains_iff_mem.2 hbuiltin)
  simp only [hanswered]
  exact ⟨builtinAnswers_merge hij hi hj hy, fun hread => builtinAnswers_set hread _,
    builtinAnswers_move hij hi hj hy⟩

/-- A function that calls itself and another one. -/
def callsItself : Graph :=
  Graph.ephemeral.performAll [
    .addNodes [Graph.bareNode 1 (some "FUNCTION"), Graph.bareNode 2 (some "FUNCTION")],
    .addEdges [⟨.ofNat 1, .ofNat 1, some "calls", none⟩, ⟨.ofNat 1, .ofNat 2, some "calls", none⟩]
      false]

theorem answers_repeated_callsItself :
    answers callsItself [] 0 ⟨"edge", [.var "X", .var "X", .const "calls"]⟩ =
      (answers callsItself [] 0 ⟨"edge", [.var "X", .var "Y", .const "calls"]⟩).filterMap
        (Bindings.merge? "X" "Y") ∧
    answers callsItself [] 0 ⟨"edge", [.var "X", .var "X", .const "calls"]⟩ =
      [.single "X" (.node (.ofNat 1))] := by
  have hplace : ∀ k, typePlace? "edge" = some k →
      ([.var "X", .var "X", .const "calls"] : List Term)[k]? ≠ some (.var "X") := by
    intro k hk
    obtain rfl : 2 = k := Option.some.inj hk
    decide
  have hends := answers_repeated callsItself [] 0 "edge" [.var "X", .var "X", .const "calls"] 0 1
    "X" "Y" (by decide) (by decide) rfl rfl (by decide)
  exact ⟨hends.1 (by decide) hplace, by decide +kernel⟩

/-- `edge(X, Y, X)` gives `X` the type of an edge although its source is another value. -/
theorem repeated_type_is_not_compared :
    answers callsItself [] 0 ⟨"edge", [.var "X", .var "Y", .var "X"]⟩ ≠
      (answers callsItself [] 0 ⟨"edge", [.var "X", .var "Y", .var "Z"]⟩).filterMap
        (Bindings.merge? "X" "Z") := by
  decide +kernel

end CodeGraph.Rules
