import Mathlib
import CodeGraph.Proofs.Rules.Reading

/-!
# Forgetting a variable

Forgetting a variable puts `_` in its places in a term or an atom and takes its value out of a
binding.  If it occurs once in an atom, whose answers then nothing is compared with, forgetting it
in the atom forgets it in the answers (`mem_answers_forget`).  Only where it lists the nodes
(`Atom.ListsNodes`) there are no answers for `_` (`answers_forget_eq_nil`).
-/

namespace CodeGraph.Rules

/-! ### Forgetting a variable -/

/-- A term with `_` in the place of a variable. -/
def Term.forget (x : String) : Term → Term
  | .var y => if y = x then .anonymous else .var y
  | term => term

/-- An atom with `_` in the places of a variable. -/
def Atom.forget (x : String) (atom : Atom) : Atom :=
  { atom with args := atom.args.map (Term.forget x) }

namespace Term

variable {x : String} {term : Term}

lemma forget_var_self (x : String) : (Term.var x).forget x = .anonymous := if_pos rfl

lemma forget_of_ne (h : term ≠ .var x) : term.forget x = term := by
  cases term with
  | var y => exact if_neg fun hy => h (congrArg Term.var hy)
  | const c => rfl
  | anonymous => rfl

lemma var?_forget_eq_some {y : String} :
    (term.forget x).var? = some y ↔ term.var? = some y ∧ y ≠ x := by
  cases term with
  | var z =>
    rw [forget]
    split
    · next hz => simp [var?, hz, eq_comm]
    · next hz =>
      simp only [var?, Option.some.injEq, ne_eq, iff_self_and]
      rintro rfl
      exact hz
  | const c => simp [forget, var?]
  | anonymous => simp [forget, var?]

/-- Putting values of other variables in does not touch what is forgotten. -/
lemma forget_bind {b : Bindings} (hx : x ∉ b) (term : Term) :
    (term.forget x).bind b = (term.bind b).forget x := by
  cases term with
  | var y =>
    by_cases hy : y = x
    · subst hy
      have hnone := Bindings.not_mem_iff.1 hx
      simp [forget, Term.bind, hnone]
    · cases hvalue : b[y]? with
      | some v => simp [forget, Term.bind, hy, hvalue]
      | none => simp [forget, Term.bind, hy, hvalue]
  | const c => rfl
  | anonymous => rfl

end Term

namespace Bindings

variable {a b : Bindings} {x y : String} {v : Value}

/-- A binding without a variable. -/
def forget (x : String) (b : Bindings) : Bindings := b.erase x

lemma getElem?_forget (b : Bindings) (x y : String) :
    (b.forget x)[y]? = if x = y then none else b[y]? := by
  rw [forget, Std.ExtTreeMap.getElem?_erase]
  simp only [Std.LawfulEqCmp.compare_eq_iff_eq]

lemma forget_of_not_mem (h : x ∉ b) : b.forget x = b := by
  refine Std.ExtTreeMap.ext_getElem? fun y => ?_
  rw [getElem?_forget]
  split
  · next hy => rw [← hy, not_mem_iff.1 h]
  · rfl

lemma forget_insert_self (b : Bindings) (x : String) (v : Value) :
    forget x (b.insert x v) = b.forget x := by
  refine Std.ExtTreeMap.ext_getElem? fun y => ?_
  rw [getElem?_forget, getElem?_forget, Std.ExtTreeMap.getElem?_insert]
  simp only [Std.LawfulEqCmp.compare_eq_iff_eq]
  split <;> rfl

lemma forget_insert_of_ne (hne : y ≠ x) (b : Bindings) (v : Value) :
    forget x (b.insert y v) = (b.forget x).insert y v := by
  refine Std.ExtTreeMap.ext_getElem? fun z => ?_
  rw [getElem?_forget, Std.ExtTreeMap.getElem?_insert, Std.ExtTreeMap.getElem?_insert,
    getElem?_forget]
  simp only [Std.LawfulEqCmp.compare_eq_iff_eq]
  by_cases hz : x = z
  · subst hz
    simp [hne]
  · simp [hz]

lemma forget_empty (x : String) : forget x ∅ = ∅ := forget_of_not_mem not_mem_empty

lemma forget_single_self (x : String) (v : Value) : (single x v).forget x = ∅ := by
  rw [single, forget_insert_self, forget_empty]

lemma forget_single_of_ne (hne : y ≠ x) (v : Value) : (single y v).forget x = single y v :=
  forget_of_not_mem fun h => hne (mem_single.1 h).symm

lemma agrees_iff : a.agrees b = true ↔
    ∀ (y : String) (v w : Value), b[y]? = some v → a[y]? = some w → w = v := by
  simp only [agrees, List.all_eq_true, Prod.forall, Std.ExtTreeMap.mem_toList_iff_getElem?_eq_some]
  refine forall_congr' fun y => ⟨fun h v w hv hw => ?_, fun h v hv => ?_⟩
  · simpa [hw] using h v hv
  · cases hw : a[y]? with
    | none => rfl
    | some w => simpa using h v w hv hw

/-- Bindings go together without a variable as they do with it, if only one of them has it. -/
lemma extend?_forget (h : x ∉ a ∨ x ∉ b) :
    (a.forget x).extend? (b.forget x) = (a.extend? b).map (forget x) := by
  have hagrees : (a.forget x).agrees (b.forget x) = a.agrees b := by
    rw [Bool.eq_iff_iff, agrees_iff, agrees_iff]
    refine forall_congr' fun y => ?_
    simp only [getElem?_forget]
    by_cases hy : x = y
    · subst hy
      obtain h | h := h <;> simp [not_mem_iff.1 h]
    · simp [hy]
  have hunion : a.forget x ∪ b.forget x = (a ∪ b).forget x := by
    refine Std.ExtTreeMap.ext_getElem? fun y => ?_
    simp only [getElem?_union, getElem?_forget]
    split <;> rfl
  rw [extend?, extend?, hagrees, hunion]
  split <;> rfl

/-- Answers that do not have a variable are the same without it. -/
lemma map_forget_of_not_mem {found : List Bindings} (h : ∀ s ∈ found, x ∉ s) :
    found.map (forget x) = found :=
  (List.map_congr_left fun s hs => forget_of_not_mem (h s hs)).trans (List.map_id _)

end Bindings

/-! ### Built-in predicates -/

section Builtins

variable {g : Graph} {x : String}

lemma matchText_forget (value : String) (term : Term) :
    matchText value (term.forget x) = (matchText value term).map (.forget x) := by
  by_cases hx : term = .var x
  · subst hx
    simp [Term.forget_var_self, matchText, Bindings.forget_single_self]
  · rw [Term.forget_of_ne hx, Bindings.map_forget_of_not_mem]
    exact fun s hs hmem => hx (eq_var_of_mem_matchText hs hmem)

/-- The type of a node can be forgotten, whether the node is known or not. -/
lemma nodeAnswers_forget_type {id : Term} (hid : id ≠ .var x) (type : Term) :
    nodeAnswers g id (type.forget x) = (nodeAnswers g id type).map (.forget x) := by
  by_cases hx : type = .var x
  · subst hx
    rw [Term.forget_var_self]
    cases id with
    | var y =>
      have hy : y ≠ x := fun h => hid (congrArg Term.var h)
      simp only [nodeAnswers, List.map_flatMap, List.map_map]
      refine List.flatMap_congr fun pair _ => List.map_congr_left fun found _ => ?_
      exact ((Bindings.forget_insert_self _ _ _).trans (Bindings.forget_single_of_ne hy _)).symm
    | const c =>
      simp only [nodeAnswers]
      cases (g.node? (.parse c)).bind Node.type with
      | none => rfl
      | some value =>
        have hmatch := matchText_forget (x := x) value (.var x)
        rwa [Term.forget_var_self] at hmatch
    | anonymous => rfl
  · rw [Term.forget_of_ne hx, Bindings.map_forget_of_not_mem]
    exact fun s hs hmem => (eq_var_of_mem_nodeAnswers hs hmem).elim hid hx

lemma unify_forget {b : Bindings} {term : Term} (h : term = .var x → x ∉ b) (v : Value) :
    unify (b.forget x) (term.forget x, v) = (unify b (term, v)).map (.forget x) := by
  cases term with
  | var y =>
    by_cases hy : y = x
    · subst hy
      have hnone := Bindings.not_mem_iff.1 (h rfl)
      simp [Term.forget_var_self, unify, hnone, Bindings.forget_insert_self]
    · rw [Term.forget_of_ne (by simpa using hy)]
      simp only [unify, Bindings.getElem?_forget, if_neg (Ne.symm hy)]
      cases b[y]? with
      | none => exact congrArg some (Bindings.forget_insert_of_ne hy b v).symm
      | some other => by_cases hv : other = v <;> simp [hv]
  | const c =>
    by_cases hv : v.isNamed c <;> simp [Term.forget, unify, hv]
  | anonymous => rfl

lemma anchorBinding_forget (anchor : Term) (id : NodeId) :
    anchorBinding (anchor.forget x) id = (anchorBinding anchor id).forget x := by
  cases anchor with
  | var y =>
    by_cases hy : y = x
    · subst hy
      rw [Term.forget_var_self]
      exact (Bindings.forget_single_self y _).symm
    · rw [Term.forget_of_ne (by simpa using hy)]
      exact (Bindings.forget_single_of_ne hy _).symm
  | const c => exact (Bindings.forget_empty x).symm
  | anonymous => exact (Bindings.forget_empty x).symm

lemma putType_forget {type : Option Term} {b : Bindings} (value : String) :
    putType (type.map (.forget x)) value (b.forget x) = (putType type value b).forget x := by
  rcases type with _ | (y | c | _)
  · rfl
  · by_cases hy : y = x
    · subst hy
      rw [Option.map_some, Term.forget_var_self]
      exact (Bindings.forget_insert_self b y _).symm
    · rw [Option.map_some, Term.forget_of_ne (by simpa using hy)]
      exact (Bindings.forget_insert_of_ne hy b _).symm
  · rfl
  · rfl

lemma edgeBinding?_forget {anchor other : Term} (h : anchor = .var x → other ≠ .var x)
    (incoming : Bool) (type : Option Term) (edge : Edge) :
    edgeBinding? incoming (anchor.forget x) (other.forget x) (type.map (.forget x)) edge =
      (edgeBinding? incoming anchor other type edge).map (.forget x) := by
  have hother (id : NodeId) : other = .var x → x ∉ anchorBinding anchor id :=
    fun hother hx => h (eq_var_of_mem_anchorBinding hx) hother
  rw [edgeBinding?_eq, edgeBinding?_eq, anchorBinding_forget, unify_forget (hother _),
    Option.map_map, Option.map_map]
  exact congrArg (Option.map · _) (funext fun b => putType_forget _)

lemma constantType?_forget (type : Option Term) :
    constantType? (type.map (.forget x)) = constantType? type := by
  rcases type with _ | (y | c | _)
  · rfl
  · by_cases hy : y = x <;> simp [constantType?, Term.forget, hy]
  · rfl
  · rfl

lemma anchoredEdges_forget (incoming : Bool) (anchor : Term) (type : Option Term) :
    anchoredEdges g incoming (anchor.forget x) (type.map (.forget x)) =
      anchoredEdges g incoming anchor type := by
  rw [anchoredEdges_eq, anchoredEdges_eq, constantType?_forget]
  cases anchor with
  | var y => cases incoming <;> by_cases hy : y = x <;> simp [Term.forget, hy]
  | const c => rfl
  | anonymous => rfl

lemma edgeAnswers_forget {anchor other : Term} (h : anchor = .var x → other ≠ .var x)
    (incoming : Bool) (type : Option Term) :
    edgeAnswers g incoming (anchor.forget x) (other.forget x) (type.map (.forget x)) =
      (edgeAnswers g incoming anchor other type).map (.forget x) := by
  rw [edgeAnswers, edgeAnswers, anchoredEdges_forget, List.map_filterMap]
  exact congrArg (List.filterMap · _) (funext fun edge => edgeBinding?_forget h incoming type edge)

/-- Where a target is asked for by `_`, all that can be reached makes one answer. -/
lemma mem_pathAnswers_forget (source target : Term) (s : Bindings) :
    s ∈ pathAnswers g (source.forget x) (target.forget x) ↔
      s ∈ (pathAnswers g source target).map (.forget x) := by
  cases source with
  | const c =>
    change s ∈ pathAnswers g (.const c) (target.forget x) ↔ _
    simp only [List.mem_map, mem_pathAnswers, unifyAll_singleton]
    have hunify (id : NodeId) : unify (Bindings.forget x ∅) (target.forget x, .node id) =
        (unify ∅ (target, .node id)).map (.forget x) := unify_forget (fun _ => not_mem_empty) _
    simp only [Bindings.forget_empty] at hunify
    simp only [hunify, Option.map_eq_some_iff]
    constructor
    · rintro ⟨id, hid, s', hs', rfl⟩
      exact ⟨s', ⟨id, hid, hs'⟩, rfl⟩
    · rintro ⟨s', ⟨id, hid, hs'⟩, rfl⟩
      exact ⟨id, hid, s', hs', rfl⟩
  | var y => by_cases hy : y = x <;> simp [pathAnswers, Term.forget, hy]
  | anonymous => simp [pathAnswers, Term.forget]

lemma attrAnswers_forget (id name value : Term) :
    attrAnswers g (id.forget x) (name.forget x) (value.forget x) =
      (attrAnswers g id name value).map (.forget x) := by
  cases id with
  | const c =>
    cases name with
    | const n =>
      simp only [attrAnswers, Term.forget]
      cases (g.node? (.parse c)).bind (attribute? · n) with
      | none => rfl
      | some found => exact matchText_forget found value
    | var y => by_cases hy : y = x <;> simp [attrAnswers, Term.forget, hy]
    | anonymous => rfl
  | var y => by_cases hy : y = x <;> simp [attrAnswers, Term.forget, hy]
  | anonymous => rfl

lemma comparisonAnswers_forget (holds : String → String → Bool) (args : List Term) :
    comparisonAnswers holds (args.map (.forget x)) =
      (comparisonAnswers holds args).map (.forget x) := by
  have hnone : (comparisonAnswers holds args).map (Bindings.forget x) =
      comparisonAnswers holds args :=
    Bindings.map_forget_of_not_mem fun _ hs => not_mem_of_mem_comparisonAnswers hs
  rw [hnone]
  match args with
  | [] | [_] => simp [comparisonAnswers]
  | a :: b :: rest =>
    cases a with
    | const c =>
      cases b with
      | var y => by_cases hy : y = x <;> simp [comparisonAnswers, Term.forget, hy]
      | _ => rfl
    | var y => by_cases hy : y = x <;> simp [comparisonAnswers, Term.forget, hy]
    | anonymous => rfl

/-- Whether an atom lists nodes by a variable: a built-in predicate for nodes has it in the first
place. -/
def Atom.ListsNodes (x : String) (atom : Atom) : Prop :=
  atom.predicate ∈ ["node", "type"] ∧ ∃ type rest, atom.args = .var x :: type :: rest

lemma ne_of_count_le_one {a b : Term} {as : List Term} (h : (a :: b :: as).count (.var x) ≤ 1)
    (ha : a = .var x) : b ≠ .var x := by
  rintro rfl
  simp [ha] at h

lemma mem_builtinAnswers_forget {atom : Atom} (honce : atom.args.count (.var x) ≤ 1)
    (hlists : ¬ atom.ListsNodes x) (s : Bindings) :
    s ∈ builtinAnswers g (atom.forget x) ↔ s ∈ (builtinAnswers g atom).map (.forget x) := by
  obtain ⟨predicate, args⟩ := atom
  refine builtinAnswers_rel (R := fun found found' => s ∈ found ↔ s ∈ found'.map (.forget x))
    (List.length_map _) (by simp) ?_ ?_ ?_ ?_ ?_
  · rintro _ _ id type _ rest hpredicate hforget rfl
    obtain ⟨rfl, rfl, -⟩ : _ ∧ _ ∧ _ := by simpa using hforget
    have hid : id ≠ .var x := fun hid => hlists ⟨hpredicate, type, rest, by rw [hid]⟩
    rw [Term.forget_of_ne hid, nodeAnswers_forget_type hid]
  · rintro incoming _ _ anchor other _ rest - hforget rfl
    obtain ⟨rfl, rfl, rfl⟩ : _ ∧ _ ∧ _ := by simpa using hforget
    rw [List.head?_map, edgeAnswers_forget (ne_of_count_le_one honce)]
  · rintro _ _ source target _ rest - hforget rfl
    obtain ⟨rfl, rfl, -⟩ : _ ∧ _ ∧ _ := by simpa using hforget
    exact mem_pathAnswers_forget source target s
  · rintro _ _ _ id name value _ rest - hforget rfl
    obtain ⟨rfl, rfl, rfl, -⟩ : _ ∧ _ ∧ _ ∧ _ := by simpa using hforget
    rw [attrAnswers_forget]
  · intro holds _
    rw [comparisonAnswers_forget]

lemma builtinAnswers_forget_eq_nil {atom : Atom} (hlists : atom.ListsNodes x) :
    builtinAnswers g (atom.forget x) = [] := by
  obtain ⟨predicate, args⟩ := atom
  obtain ⟨hpredicate, type, rest, hargs⟩ := hlists
  obtain rfl : args = .var x :: type :: rest := hargs
  have hnone : nodeAnswers g ((Term.var x).forget x) (type.forget x) = [] := by
    rw [Term.forget_var_self, nodeAnswers]
  simp only [List.mem_cons, List.not_mem_nil, or_false] at hpredicate
  obtain rfl | rfl := hpredicate
  · exact hnone
  · exact hnone

end Builtins

/-! ### Derived predicates -/

section Derived

variable {x : String}

lemma seed_forget (head goal : Atom) : seed head (goal.forget x) = seed head goal := by
  rw [seed_eq_foldl, seed_eq_foldl, Atom.forget, List.zip_map_right, List.foldl_map]
  refine congrArg (List.foldl · _ _) (funext fun found => funext fun (term, other) => ?_)
  cases other with
  | var y => by_cases hy : y = x <;> cases term <;> simp [seedStep, Term.forget, hy]
  | _ => rfl

lemma project1?_forget {found : Bindings} {term : Term} (h : term = .var x → x ∉ found)
    (b : Bindings) (head : Term) : project1? b (found.forget x) (head, term.forget x) =
      (project1? b found (head, term)).map (.forget x) := by
  rw [project1?_eq, project1?_eq]
  cases headValue? b head with
  | some v => exact unify_forget h v
  | none => rfl

/-- The variable is bound at its only place or not at all, so no later place compares its value. -/
lemma project?_forget {goal : Atom} (honce : goal.args.count (.var x) ≤ 1) (head : Atom)
    (b : Bindings) : project? head (goal.forget x) b = (project? head goal b).map (.forget x) := by
  have hfold (heads terms : List Term) (found : Bindings) (hlater : x ∈ found → .var x ∉ terms)
      (honce : terms.count (.var x) ≤ 1) :
      (heads.zip (terms.map (.forget x))).foldlM (project1? b) (found.forget x) =
        ((heads.zip terms).foldlM (project1? b) found).map (.forget x) := by
    induction heads generalizing terms found with
    | nil => rfl
    | cons head heads ih =>
      cases terms with
      | nil => rfl
      | cons term terms =>
        have hterm : term = .var x → x ∉ found := fun hterm hx => hlater hx (by simp [hterm])
        rw [List.map_cons, List.zip_cons_cons, List.zip_cons_cons, List.foldlM_cons,
          List.foldlM_cons, project1?_forget hterm]
        cases hstep : project1? b found (head, term) with
        | none => rfl
        | some found' =>
          refine ih terms found' (fun hx => ?_) (List.count_le_count_cons.trans honce)
          obtain hx | hx := eq_var_of_project1? hstep hx
          · exact fun hmem => hlater hx (List.mem_cons_of_mem _ hmem)
          · rw [show term = .var x from hx, List.count_cons_self] at honce
            exact List.count_eq_zero.1 (by omega)
  have hall := hfold head.args goal.args ∅ (fun hx => absurd hx not_mem_empty) honce
  rwa [Bindings.forget_empty] at hall

lemma ruleAnswers_forget {goal : Atom} (honce : goal.args.count (.var x) ≤ 1)
    (ask : Atom → List Bindings) (rule : Rule) :
    ruleAnswers ask (goal.forget x) rule = (ruleAnswers ask goal rule).map (.forget x) := by
  unfold ruleAnswers
  simp only [seed_forget]
  split
  · rw [List.map_filterMap]
    exact congrArg (List.filterMap · _) (funext fun b => project?_forget honce _ b)
  · rfl

end Derived

/-- Forgetting a variable that occurs once in an atom forgets it in the answers. -/
lemma mem_answers_forget {g : Graph} {program : List Rule} {depth : Nat} {x : String} {atom : Atom}
    (honce : atom.args.count (.var x) ≤ 1) (hlists : ¬ atom.ListsNodes x) (s : Bindings) :
    s ∈ answers g program depth (atom.forget x) ↔
      s ∈ (answers g program depth atom).map (.forget x) := by
  by_cases hbuiltin : builtins.contains atom.predicate
  · have hbuiltin' : builtins.contains (atom.forget x).predicate := hbuiltin
    rw [answers_of_builtin hbuiltin, answers_of_builtin hbuiltin']
    exact mem_builtinAnswers_forget honce hlists s
  · have hbuiltin' : ¬ builtins.contains (atom.forget x).predicate := hbuiltin
    cases depth with
    | zero =>
      rw [answers_zero_of_derived hbuiltin, answers_zero_of_derived hbuiltin']
      rfl
    | succ depth =>
      rw [mem_answers_succ_of_derived hbuiltin', List.mem_map]
      simp only [mem_answers_succ_of_derived hbuiltin, ruleAnswers_forget honce, List.mem_map]
      constructor
      · rintro ⟨rule, hrule, hpredicate, s', hs', rfl⟩
        exact ⟨s', ⟨rule, hrule, hpredicate, hs'⟩, rfl⟩
      · rintro ⟨s', ⟨rule, hrule, hpredicate, hs'⟩, rfl⟩
        exact ⟨rule, hrule, hpredicate, s', hs', rfl⟩

/-- The nodes are never listed for `_`. -/
lemma answers_forget_eq_nil {g : Graph} {program : List Rule} {depth : Nat} {x : String}
    {atom : Atom} (hlists : atom.ListsNodes x) : answers g program depth (atom.forget x) = [] := by
  have hbuiltin : builtins.contains (atom.forget x).predicate := by
    obtain ⟨predicate, args⟩ := atom
    obtain ⟨hpredicate, -⟩ := hlists
    simp only [List.mem_cons, List.not_mem_nil, or_false] at hpredicate
    obtain rfl | rfl := hpredicate <;> rfl
  rw [answers_of_builtin hbuiltin, builtinAnswers_forget_eq_nil hlists]

end CodeGraph.Rules
