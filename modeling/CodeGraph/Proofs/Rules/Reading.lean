import Mathlib
import CodeGraph.Proofs.Rules.Derived

/-!
# What atoms read and bind

A built-in predicate reads so many terms of an atom and no others; two atoms with as many terms
are read in the same way (`builtinAnswers_rel`).  Whatever is asked, an answer binds only variables
of the atom (`mem_vars_of_mem_answers`).
-/

namespace CodeGraph.Rules

variable {g : Graph}

/-! ### Built-in predicates -/

lemma builtinAnswers_of_not_mem {atom : Atom} (h : atom.predicate ∉ builtins) :
    builtinAnswers g atom = [] := by
  fun_cases builtinAnswers g atom with
  | case11 => rfl
  | _ => simp_all [builtins]

/-- Every built-in predicate reads at least two terms. -/
lemma builtinAnswers_of_length_lt {predicate : String} {args : List Term} (h : args.length < 2) :
    builtinAnswers g ⟨predicate, args⟩ = [] := by
  by_cases hbuiltin : predicate ∈ builtins
  · simp only [builtins, List.mem_cons, List.not_mem_nil, or_false] at hbuiltin
    rcases args with _ | ⟨t, _ | ⟨u, rest⟩⟩
    · obtain rfl | rfl | rfl | rfl | rfl | rfl | rfl | rfl | rfl | rfl := hbuiltin <;> rfl
    · obtain rfl | rfl | rfl | rfl | rfl | rfl | rfl | rfl | rfl | rfl := hbuiltin <;>
        cases t <;> rfl
    · simp at h
  · exact builtinAnswers_of_not_mem hbuiltin

lemma exists_cons_cons {args : List Term} (h : 2 ≤ args.length) :
    ∃ t u rest, args = t :: u :: rest := by
  rcases args with _ | ⟨t, _ | ⟨u, rest⟩⟩
  · simp at h
  · simp at h
  · exact ⟨t, u, rest, rfl⟩

/-- What relates the answers to two atoms with the same built-in predicate and as many terms, case
by case. -/
lemma builtinAnswers_rel {R : List Bindings → List Bindings → Prop} {predicate : String}
    {args args' : List Term} (hlength : args.length = args'.length) (hnil : R [] [])
    (hnode : ∀ {id type id' type' : Term} {rest rest' : List Term},
      predicate ∈ ["node", "type"] → args = id :: type :: rest → args' = id' :: type' :: rest' →
        R (nodeAnswers g id type) (nodeAnswers g id' type'))
    (hedge : ∀ (incoming : Bool) {anchor other anchor' other' : Term} {rest rest' : List Term},
      predicate ∈ ["edge", "incoming"] → args = anchor :: other :: rest →
        args' = anchor' :: other' :: rest' → R (edgeAnswers g incoming anchor other rest.head?)
          (edgeAnswers g incoming anchor' other' rest'.head?))
    (hpath : ∀ {source target source' target' : Term} {rest rest' : List Term},
      predicate = "path" → args = source :: target :: rest → args' = source' :: target' :: rest' →
        R (pathAnswers g source target) (pathAnswers g source' target'))
    (hattr : ∀ {id name value id' name' value' : Term} {rest rest' : List Term},
      predicate = "attr" → args = id :: name :: value :: rest →
        args' = id' :: name' :: value' :: rest' →
          R (attrAnswers g id name value) (attrAnswers g id' name' value'))
    (hcomparison : ∀ holds, predicate ∈ ["neq", "starts_with", "not_starts_with",
      "string_contains"] → R (comparisonAnswers holds args) (comparisonAnswers holds args')) :
    R (builtinAnswers g ⟨predicate, args⟩) (builtinAnswers g ⟨predicate, args'⟩) := by
  by_cases hshort : args.length < 2
  · rw [builtinAnswers_of_length_lt hshort, builtinAnswers_of_length_lt (hlength ▸ hshort)]
    exact hnil
  obtain ⟨t, u, rest, rfl⟩ := exists_cons_cons (not_lt.1 hshort)
  obtain ⟨t', u', rest', rfl⟩ := exists_cons_cons (hlength ▸ not_lt.1 hshort)
  by_cases hbuiltin : predicate ∈ builtins
  · simp only [builtins, List.mem_cons, List.not_mem_nil, or_false] at hbuiltin
    obtain rfl | rfl | rfl | rfl | rfl | rfl | rfl | rfl | rfl | rfl := hbuiltin
    · exact hnode (by simp) rfl rfl
    · exact hnode (by simp) rfl rfl
    · exact hedge false (by simp) rfl rfl
    · exact hedge true (by simp) rfl rfl
    · exact hpath rfl rfl rfl
    · rcases rest with _ | ⟨v, rest⟩ <;> rcases rest' with _ | ⟨v', rest'⟩ <;> simp at hlength
      · exact hnil
      · exact hattr rfl rfl rfl
    all_goals exact hcomparison _ (by simp)
  · rw [builtinAnswers_of_not_mem hbuiltin, builtinAnswers_of_not_mem hbuiltin]
    exact hnil

/-- Only constants narrow the edges down that an atom is compared with. -/
lemma anchoredEdges_eq (incoming : Bool) (anchor : Term) (type : Option Term) :
    anchoredEdges g incoming anchor type =
      match anchor, incoming with
      | .const c, true => g.incomingEdges (.parse c) ((constantType? type).map ([·]))
      | .const c, false => g.outgoingEdges (.parse c) ((constantType? type).map ([·]))
      | _, false => g.allEdges.filter fun edge =>
          (constantType? type).isNone || edge.type == constantType? type
      | _, true => [] := by
  cases anchor <;> cases incoming <;> rfl

/-! ### Variables of answers -/

section Vars

variable {s : Bindings} {x : String}

lemma not_mem_empty : x ∉ (∅ : Bindings) := by simp

lemma eq_var_of_mem_matchText {value : String} {term : Term} (hs : s ∈ matchText value term)
    (hx : x ∈ s) : term = .var x := by
  cases term with
  | var y =>
    obtain rfl := List.mem_singleton.1 hs
    rw [Bindings.mem_single.1 hx]
  | const c =>
    rw [matchText] at hs
    split at hs
    · obtain rfl := List.mem_singleton.1 hs
      exact absurd hx not_mem_empty
    · simp at hs
  | anonymous =>
    obtain rfl := List.mem_singleton.1 hs
    exact absurd hx not_mem_empty

lemma mem_insert {b : Bindings} {y : String} {v : Value} (h : x ∈ b.insert y v) :
    x = y ∨ x ∈ b := by
  obtain hy | hb := Std.ExtTreeMap.mem_insert.1 h
  · exact .inl (Std.LawfulEqCmp.compare_eq_iff_eq.1 hy).symm
  · exact .inr hb

lemma eq_var_of_mem_nodeAnswers {id type : Term} (hs : s ∈ nodeAnswers g id type) (hx : x ∈ s) :
    id = .var x ∨ type = .var x := by
  unfold nodeAnswers at hs
  split at hs
  · next y pattern =>
    obtain ⟨found, -, rfl⟩ := List.mem_map.1 hs
    exact .inl (congrArg Term.var (Bindings.mem_single.1 hx).symm)
  · split at hs
    · exact .inr (eq_var_of_mem_matchText hs hx)
    · simp at hs
  · next y hnot =>
    obtain ⟨⟨value, _⟩, -, hs⟩ := List.mem_flatMap.1 hs
    obtain ⟨found, -, rfl⟩ := List.mem_map.1 hs
    cases type with
    | var z =>
      obtain rfl | hx := mem_insert hx
      · exact .inr rfl
      · exact .inl (congrArg Term.var (Bindings.mem_single.1 hx).symm)
    | const c => exact (hnot c rfl).elim
    | anonymous => exact .inl (congrArg Term.var (Bindings.mem_single.1 hx).symm)
  · simp at hs

lemma eq_var_of_unify {b : Bindings} {term : Term} {v : Value} (hs : unify b (term, v) = some s)
    (hx : x ∈ s) : x ∈ b ∨ term = .var x := by
  cases term with
  | var y =>
    simp only [unify] at hs
    split at hs
    · split at hs
      · obtain rfl := Option.some.inj hs
        exact .inl hx
      · simp at hs
    · obtain rfl := Option.some.inj hs
      exact (mem_insert hx).symm.imp_right fun h => congrArg Term.var h.symm
  | const c =>
    rw [unify_const] at hs
    split at hs
    · obtain rfl := Option.some.inj hs
      exact .inl hx
    · simp at hs
  | anonymous =>
    obtain rfl := Option.some.inj hs
    exact .inl hx

/-- What an edge atom binds by its anchor. -/
def anchorBinding (anchor : Term) (id : NodeId) : Bindings :=
  match anchor with
  | .var name => .single name (.node id)
  | _ => ∅

lemma eq_var_of_mem_anchorBinding {anchor : Term} {id : NodeId} (hx : x ∈ anchorBinding anchor id) :
    anchor = .var x := by
  cases anchor with
  | var y => exact congrArg Term.var (Bindings.mem_single.1 hx).symm
  | const c => exact absurd hx not_mem_empty
  | anonymous => exact absurd hx not_mem_empty

/-- What an edge atom binds by its type, whatever is bound already. -/
def putType (type : Option Term) (value : String) (b : Bindings) : Bindings :=
  match type with
  | some (.var name) => b.insert name (.text value)
  | _ => b

/-- The anchor is bound, the other end is unified, and the type is put on top. -/
lemma edgeBinding?_eq (incoming : Bool) (anchor other : Term) (type : Option Term) (edge : Edge) :
    edgeBinding? incoming anchor other type edge =
      (unify (anchorBinding anchor (anchorOf incoming edge))
        (other, .node (otherOf incoming edge))).map (putType type (edge.type.getD "")) := by
  have hends : (if incoming then (edge.dst, edge.src) else (edge.src, edge.dst)) =
      (anchorOf incoming edge, otherOf incoming edge) := by
    cases incoming <;> rfl
  have huntyped : edgeBinding? incoming anchor other none edge =
      unify (anchorBinding anchor (anchorOf incoming edge))
        (other, .node (otherOf incoming edge)) := by
    cases other with
    | const c =>
      simp only [edgeBinding?, hends, unify, Value.isNamed, beq_iff_eq]
      rfl
    | _ =>
      simp only [edgeBinding?, hends]
      rfl
  rw [← huntyped]
  rcases type with _ | (z | t | _)
  · exact Option.map_id'.symm
  · rfl
  · exact Option.map_id'.symm
  · exact Option.map_id'.symm

lemma eq_var_of_edgeBinding? {incoming : Bool} {anchor other : Term} {type : Option Term}
    {edge : Edge} (hs : edgeBinding? incoming anchor other type edge = some s) (hx : x ∈ s) :
    anchor = .var x ∨ other = .var x ∨ type = some (.var x) := by
  rw [edgeBinding?_eq] at hs
  obtain ⟨b, hb, rfl⟩ := Option.map_eq_some_iff.1 hs
  have hends (hx : x ∈ b) : anchor = .var x ∨ other = .var x :=
    (eq_var_of_unify hb hx).imp_left eq_var_of_mem_anchorBinding
  unfold putType at hx
  split at hx
  · next y =>
    obtain rfl | hx := mem_insert hx
    · exact .inr (.inr rfl)
    · exact (hends hx).imp_right .inl
  · exact (hends hx).imp_right .inl

lemma eq_var_of_mem_pathAnswers {source target : Term} (hs : s ∈ pathAnswers g source target)
    (hx : x ∈ s) : target = .var x := by
  cases source with
  | const c =>
    obtain ⟨id, -, hunify⟩ := mem_pathAnswers.1 hs
    rw [unifyAll_singleton] at hunify
    exact (eq_var_of_unify hunify hx).resolve_left not_mem_empty
  | var y => simp [pathAnswers] at hs
  | anonymous => simp [pathAnswers] at hs

lemma eq_var_of_mem_attrAnswers {id name value : Term} (hs : s ∈ attrAnswers g id name value)
    (hx : x ∈ s) : value = .var x := by
  unfold attrAnswers at hs
  split at hs
  · split at hs
    · exact eq_var_of_mem_matchText hs hx
    · simp at hs
  · simp at hs

lemma not_mem_of_mem_comparisonAnswers {holds : String → String → Bool} {args : List Term}
    (hs : s ∈ comparisonAnswers holds args) : x ∉ s := by
  unfold comparisonAnswers at hs
  split at hs
  · split at hs
    · obtain rfl := List.mem_singleton.1 hs
      exact not_mem_empty
    · simp at hs
  · simp at hs

lemma mem_vars_of_mem_builtinAnswers {atom : Atom} (hs : s ∈ builtinAnswers g atom) (hx : x ∈ s) :
    x ∈ atom.vars := by
  obtain ⟨predicate, args⟩ := atom
  rw [Atom.mem_vars]
  refine builtinAnswers_rel (R := fun found _ => ∀ s ∈ found, x ∈ s → .var x ∈ args) rfl
    (by simp) ?_ ?_ ?_ ?_ (fun _ _ s hs hx => absurd hx (not_mem_of_mem_comparisonAnswers hs))
    s hs hx
  · rintro id type _ _ rest _ - rfl - s hs hx
    obtain rfl | rfl := eq_var_of_mem_nodeAnswers hs hx <;> simp
  · rintro incoming anchor other _ _ rest _ - rfl - s hs hx
    obtain ⟨edge, -, hedge⟩ := List.mem_filterMap.1 hs
    obtain rfl | rfl | htype := eq_var_of_edgeBinding? hedge hx
    · simp
    · simp
    · simp [List.mem_of_mem_head? htype]
  · rintro source target _ _ rest _ - rfl - s hs hx
    simp [eq_var_of_mem_pathAnswers hs hx]
  · rintro id name value _ _ _ rest _ - rfl - s hs hx
    simp [eq_var_of_mem_attrAnswers hs hx]

lemma project1?_eq (b found : Bindings) (head term : Term) : project1? b found (head, term) =
    match headValue? b head with
    | some v => unify found (term, v)
    | none => some found := by
  cases hvalue : headValue? b head <;> cases term <;> simp only [project1?, hvalue] <;> rfl

lemma eq_var_of_project1? {b found : Bindings} {pair : Term × Term}
    (hs : project1? b found pair = some s) (hx : x ∈ s) : x ∈ found ∨ pair.2 = .var x := by
  rw [project1?_eq] at hs
  cases hvalue : headValue? b pair.1 with
  | some v =>
    rw [hvalue] at hs
    exact eq_var_of_unify hs hx
  | none =>
    rw [hvalue] at hs
    obtain rfl := Option.some.inj hs
    exact .inl hx

lemma mem_vars_of_project? {head goal : Atom} {b : Bindings} (hs : project? head goal b = some s)
    (hx : x ∈ s) : x ∈ goal.vars := by
  have hfold (pairs : List (Term × Term)) (found : Bindings)
      (hs : pairs.foldlM (project1? b) found = some s) :
      x ∈ found ∨ ∃ pair ∈ pairs, pair.2 = .var x := by
    induction pairs generalizing found with
    | nil =>
      obtain rfl := Option.some.inj hs
      exact .inl hx
    | cons pair pairs ih =>
      rw [List.foldlM_cons] at hs
      obtain ⟨found', hfound', hs⟩ := Option.bind_eq_some_iff.1 hs
      obtain hx | ⟨other, hother, heq⟩ := ih found' hs
      · exact (eq_var_of_project1? hfound' hx).imp_right fun h => ⟨pair, by simp, h⟩
      · exact .inr ⟨other, List.mem_cons_of_mem _ hother, heq⟩
  obtain hx | ⟨⟨_, _⟩, hpair, rfl⟩ := hfold _ _ hs
  · exact absurd hx not_mem_empty
  · exact Atom.mem_vars.2 (List.of_mem_zip hpair).2

lemma exists_of_mem_ruleAnswers {ask : Atom → List Bindings} {goal : Atom} {rule : Rule}
    (hs : s ∈ ruleAnswers ask goal rule) :
    ∃ b, project? (rule.head.bind (seed rule.head goal)) goal b = some s := by
  unfold ruleAnswers at hs
  dsimp only at hs
  split at hs
  · obtain ⟨b, -, hb⟩ := List.mem_filterMap.1 hs
    exact ⟨b, hb⟩
  · simp at hs

/-- An answer to an atom binds only variables of the atom. -/
lemma mem_vars_of_mem_answers {program : List Rule} {depth : Nat} {atom : Atom}
    (hs : s ∈ answers g program depth atom) (hx : x ∈ s) : x ∈ atom.vars := by
  by_cases hbuiltin : builtins.contains atom.predicate
  · rw [answers_of_builtin hbuiltin] at hs
    exact mem_vars_of_mem_builtinAnswers hs hx
  · cases depth with
    | zero => simp [answers_zero_of_derived hbuiltin] at hs
    | succ depth =>
      obtain ⟨rule, -, -, hs⟩ := (mem_answers_succ_of_derived hbuiltin).1 hs
      obtain ⟨b, hb⟩ := exists_of_mem_ruleAnswers hs
      exact mem_vars_of_project? hb hx

end Vars

end CodeGraph.Rules
