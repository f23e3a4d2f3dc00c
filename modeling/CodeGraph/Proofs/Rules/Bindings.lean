import Mathlib
import CodeGraph.Rules.Bindings
import CodeGraph.Rules.Schedule

/-!
# Bindings and ground atoms

An atom is *ground* when it has no variables.  `Atom.ground τ` puts a text in the place of
every variable, and putting the values of a binding into an atom is the same as long as the
binding covers its variables (`Atom.bind_eq_ground`).  What is put in first is not touched
afterwards, so binding and then grounding is grounding by `Bindings.textOr`.

`Bindings.Assigns` says which variables a binding has and which values they may take.
-/

namespace CodeGraph.Rules

open Std (ExtTreeMap)

namespace Bindings

/-! ### Values of a binding -/

lemma mem_iff {b : Bindings} {x : String} : x ∈ b ↔ ∃ v, b[x]? = some v := by
  rw [ExtTreeMap.mem_iff_isSome_getElem?, Option.isSome_iff_exists]

lemma not_mem_iff {b : Bindings} {x : String} : x ∉ b ↔ b[x]? = none := by
  rw [mem_iff, Option.eq_none_iff_forall_ne_some, not_exists]

/-- The binding that gives each of some variables the value of a function. -/
def tabulate (vars : List String) (f : String → Value) : Bindings :=
  vars.foldl (fun b x => b.insert x (f x)) ∅

lemma getElem?_tabulate (vars : List String) (f : String → Value) (x : String) :
    (tabulate vars f)[x]? = if x ∈ vars then some (f x) else none := by
  have hfold : ∀ (vars : List String) (b : Bindings),
      (vars.foldl (fun b x => b.insert x (f x)) b)[x]? =
        if x ∈ vars then some (f x) else b[x]? := by
    intro vars
    induction vars with
    | nil => simp
    | cons y vars ih =>
      intro b
      rw [List.foldl_cons, ih, ExtTreeMap.getElem?_insert]
      simp only [Std.LawfulEqCmp.compare_eq_iff_eq, List.mem_cons]
      by_cases hy : y = x
      · subst hy
        simp
      · simp [hy, Ne.symm hy]
  simpa [tabulate] using hfold vars ∅

lemma getElem?_single (x : String) (v : Value) (y : String) :
    (single x v)[y]? = if x = y then some v else none := by
  simp only [single, ExtTreeMap.getElem?_insert, Std.LawfulEqCmp.compare_eq_iff_eq]
  simp

lemma mem_single {x : String} {v : Value} {y : String} : y ∈ single x v ↔ y = x := by
  rw [mem_iff, getElem?_single]
  by_cases hy : x = y <;> simp [hy, eq_comm (a := y)]

lemma getElem?_union (a b : Bindings) (x : String) : (a ∪ b)[x]? = b[x]?.or a[x]? :=
  ExtTreeMap.getElem?_union

/-- Bindings of different variables always go together. -/
lemma extend?_of_disjoint {a b : Bindings} (h : ∀ x ∈ b, x ∉ a) :
    a.extend? b = some (a ∪ b) := by
  have hagrees : a.agrees b := by
    simp only [agrees, List.all_eq_true, Prod.forall,
      ExtTreeMap.mem_toList_iff_getElem?_eq_some]
    intro x v hx
    have hnone : a[x]? = none := not_mem_iff.1 (h x (mem_iff.2 ⟨v, hx⟩))
    simp [hnone]
  simp [extend?, hagrees]

@[simp] lemma extend?_empty (b : Bindings) : b.extend? ∅ = some b := by
  rw [extend?_of_disjoint (by simp), Option.some.injEq]
  exact ExtTreeMap.ext_getElem? fun x => by simp [getElem?_union]

/-- A binding gives values of the right kinds to exactly the given variables. -/
structure Assigns (b : Bindings) (kinds : String → Value → Prop) (vars : List String) :
    Prop where
  covers : ∀ x, x ∈ b ↔ x ∈ vars
  kinds : ∀ {x : String} {v : Value}, b[x]? = some v → kinds x v

lemma assigns_tabulate {kinds : String → Value → Prop} {vars : List String}
    {f : String → Value} (h : ∀ x ∈ vars, kinds x (f x)) :
    (tabulate vars f).Assigns kinds vars := by
  constructor
  · intro x
    rw [mem_iff, getElem?_tabulate]
    by_cases hx : x ∈ vars <;> simp [hx]
  · intro x v hv
    rw [getElem?_tabulate] at hv
    split at hv
    · next hx => exact Option.some.inj hv ▸ h x hx
    · simp at hv

lemma assigns_nil_iff {b : Bindings} {kinds : String → Value → Prop} :
    b.Assigns kinds [] ↔ b = ∅ := by
  constructor
  · intro h
    exact ExtTreeMap.eq_empty_iff_forall_not_mem.2 fun x hx => by simpa using (h.covers x).1 hx
  · rintro rfl
    exact ⟨by simp, by simp⟩

lemma Assigns.congr {b : Bindings} {kinds : String → Value → Prop} {vars vars' : List String}
    (h : b.Assigns kinds vars) (hvars : ∀ x, x ∈ vars ↔ x ∈ vars') : b.Assigns kinds vars' :=
  ⟨fun x => (h.covers x).trans (hvars x), h.kinds⟩

/-- A binding that extends another one of the same variables is that binding. -/
lemma Assigns.eq_of_extends {b r : Bindings} {kinds : String → Value → Prop}
    {vars : List String} (hb : b.Assigns kinds vars) (hr : r.Assigns kinds vars)
    (hextends : ∀ {x : String} {v : Value}, b[x]? = some v → r[x]? = some v) : r = b := by
  refine ExtTreeMap.ext_getElem? fun x => ?_
  cases hx : b[x]? with
  | some v => exact hextends hx
  | none =>
    have hnew : x ∉ b := not_mem_iff.2 hx
    rw [← not_mem_iff, hr.covers, ← hb.covers]
    exact hnew

/-- The part of a binding with the given variables. -/
def restrict (r : Bindings) (vars : List String) : Bindings :=
  tabulate vars fun x => r[x]?.getD (.text "")

lemma getElem?_restrict {r : Bindings} {vars : List String} (hsub : ∀ x ∈ vars, x ∈ r)
    (x : String) : (r.restrict vars)[x]? = if x ∈ vars then r[x]? else none := by
  rw [restrict, getElem?_tabulate]
  split
  · next hx =>
    obtain ⟨v, hv⟩ := mem_iff.1 (hsub x hx)
    simp [hv]
  · rfl

lemma getElem?_of_getElem?_restrict {r : Bindings} {vars : List String}
    (hsub : ∀ x ∈ vars, x ∈ r) {x : String} {v : Value} (h : (r.restrict vars)[x]? = some v) :
    r[x]? = some v := by
  rw [getElem?_restrict hsub] at h
  split at h
  · exact h
  · simp at h

lemma Assigns.restrict {r : Bindings} {kinds : String → Value → Prop}
    {vars vars' : List String} (hr : r.Assigns kinds vars) (hsub : ∀ x ∈ vars', x ∈ vars) :
    (r.restrict vars').Assigns kinds vars' := by
  have hget := getElem?_restrict fun x hx => (hr.covers x).2 (hsub x hx)
  constructor
  · intro x
    rw [mem_iff, hget]
    constructor
    · rintro ⟨v, hv⟩
      by_contra hx
      simp [hx] at hv
    · intro hx
      simpa [hx, ← mem_iff] using (hr.covers x).2 (hsub x hx)
  · intro x v hv
    exact hr.kinds
      (getElem?_of_getElem?_restrict (fun x hx => (hr.covers x).2 (hsub x hx)) hv)

/-! ### Texts of a binding -/

/-- The texts of the values of a binding, and those of a function elsewhere. -/
def textOr (b : Bindings) (τ : String → String) (x : String) : String :=
  match b[x]? with
  | some v => v.asText
  | none => τ x

/-- The texts of the values of a binding, and the empty text elsewhere. -/
def text (b : Bindings) : String → String :=
  b.textOr fun _ => ""

lemma textOr_of_eq_some {b : Bindings} {x : String} {v : Value} (h : b[x]? = some v)
    (τ : String → String) : b.textOr τ x = v.asText := by
  simp [textOr, h]

lemma textOr_of_not_mem {b : Bindings} {x : String} (h : x ∉ b) (τ : String → String) :
    b.textOr τ x = τ x := by
  simp [textOr, not_mem_iff.1 h]

/-- A binding that extends another one has the same texts where that has values. -/
lemma text_eq_of_extends {b r : Bindings}
    (hextends : ∀ {x : String} {v : Value}, b[x]? = some v → r[x]? = some v) {x : String}
    (hx : x ∈ b) : b.text x = r.text x := by
  obtain ⟨v, hv⟩ := mem_iff.1 hx
  rw [text, text, textOr_of_eq_some hv, textOr_of_eq_some (hextends hv)]

/-- The texts of two bindings of different variables together. -/
lemma text_union {a b : Bindings} (h : ∀ x ∈ b, x ∉ a) : (a ∪ b).text = a.textOr b.text := by
  funext x
  cases hx : b[x]? with
  | none => simp [text, textOr, getElem?_union, hx]
  | some v =>
    have hnew : a[x]? = none := not_mem_iff.1 (h x (mem_iff.2 ⟨v, hx⟩))
    simp [text, textOr, getElem?_union, hx, hnew]

end Bindings

/-! ### Ground atoms -/

/-- A term with a text in the place of a variable. -/
def Term.ground (τ : String → String) : Term → Term
  | .var x => .const (τ x)
  | term => term

/-- An atom with texts in the places of its variables. -/
def Atom.ground (τ : String → String) (atom : Atom) : Atom :=
  { atom with args := atom.args.map (Term.ground τ) }

namespace Term

lemma ground_bind (b : Bindings) (τ : String → String) (term : Term) :
    (term.bind b).ground τ = term.ground (b.textOr τ) := by
  cases term with
  | var x =>
    cases hx : b[x]? with
    | none => simp [Term.bind, ground, Bindings.textOr, hx]
    | some v => simp [Term.bind, ground, Bindings.textOr, hx]
  | const c => rfl
  | anonymous => rfl

lemma bind_eq_ground {b : Bindings} {term : Term} (h : ∀ x, term = .var x → x ∈ b) :
    term.bind b = term.ground b.text := by
  cases term with
  | var x =>
    obtain ⟨v, hv⟩ := Bindings.mem_iff.1 (h x rfl)
    simp [Term.bind, ground, hv, Bindings.text, Bindings.textOr_of_eq_some hv]
  | const c => rfl
  | anonymous => rfl

lemma var?_bind {b : Bindings} {term : Term} {x : String} :
    (term.bind b).var? = some x ↔ term = .var x ∧ x ∉ b := by
  cases term with
  | var y =>
    cases hy : b[y]? with
    | none =>
      have hnot : y ∉ b := Bindings.not_mem_iff.2 hy
      simp only [Term.bind, hy, var?, Option.some.injEq, var.injEq]
      exact ⟨fun h => ⟨h, h ▸ hnot⟩, And.left⟩
    | some v =>
      have hmem : y ∈ b := Bindings.mem_iff.2 ⟨v, hy⟩
      simp only [Term.bind, hy, var?, var.injEq, reduceCtorEq, false_iff, not_and, not_not]
      exact fun h => h ▸ hmem
  | const c => simp [Term.bind, var?]
  | anonymous => simp [Term.bind, var?]

end Term

namespace Atom

@[simp] lemma predicate_bind (b : Bindings) (atom : Atom) :
    (atom.bind b).predicate = atom.predicate := rfl

@[simp] lemma predicate_ground (τ : String → String) (atom : Atom) :
    (atom.ground τ).predicate = atom.predicate := rfl

lemma mem_vars {atom : Atom} {x : String} : x ∈ atom.vars ↔ .var x ∈ atom.args := by
  simp only [vars, List.mem_filterMap]
  constructor
  · rintro ⟨term, hterm, hx⟩
    cases term <;> simp_all [Term.var?]
  · exact fun h => ⟨.var x, h, rfl⟩

lemma mem_vars_bind {b : Bindings} {atom : Atom} {x : String} :
    x ∈ (atom.bind b).vars ↔ x ∈ atom.vars ∧ x ∉ b := by
  rw [@mem_vars atom]
  simp only [vars, bind, List.filterMap_map, List.mem_filterMap, Function.comp_apply,
    Term.var?_bind]
  constructor
  · rintro ⟨term, hterm, rfl, hx⟩
    exact ⟨hterm, hx⟩
  · rintro ⟨hterm, hx⟩
    exact ⟨.var x, hterm, rfl, hx⟩

@[simp] lemma vars_ground (τ : String → String) (atom : Atom) : (atom.ground τ).vars = [] := by
  refine List.eq_nil_iff_forall_not_mem.2 fun x hx => ?_
  obtain ⟨term, -, hterm⟩ := List.mem_map.1 (mem_vars.1 hx)
  cases term <;> simp [Term.ground] at hterm

/-- The texts of variables that do not occur play no part. -/
lemma ground_congr {τ τ' : String → String} {atom : Atom}
    (h : ∀ x ∈ atom.vars, τ x = τ' x) : atom.ground τ = atom.ground τ' := by
  simp only [ground, mk.injEq, true_and]
  refine List.map_congr_left fun term hterm => ?_
  cases term with
  | var x => rw [Term.ground, Term.ground, h x (mem_vars.2 hterm)]
  | const c => rfl
  | anonymous => rfl

lemma ground_bind (b : Bindings) (τ : String → String) (atom : Atom) :
    (atom.bind b).ground τ = atom.ground (b.textOr τ) := by
  simp [ground, bind, Term.ground_bind]

/-- Putting the values of a binding into an atom makes it ground when it covers the
variables. -/
lemma bind_eq_ground {b : Bindings} {atom : Atom} (h : ∀ x ∈ atom.vars, x ∈ b) :
    atom.bind b = atom.ground b.text := by
  simp only [ground, bind, mk.injEq, true_and]
  refine List.map_congr_left fun term hterm => Term.bind_eq_ground ?_
  rintro x rfl
  exact h x (mem_vars.2 hterm)

end Atom

end CodeGraph.Rules
