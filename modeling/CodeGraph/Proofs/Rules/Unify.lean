import Mathlib
import CodeGraph.Rules.Answers
import CodeGraph.Proofs.Rules.Bindings

/-!
# Terms and their values

`Term.Is s v` says that a term has the value `v` under the binding `s`: a variable is bound
to it, and a constant names it.  `unify` extends a binding as little as possible, so that a
term has a given value, and `unifyAll` does this for a list of terms.

`unifyAll_eq_some` tells what comes out: the binding of the variables of the terms under
which all terms have their values.  The answers of the built-in predicates and the bindings
that rules give to goals come from such lists.
-/

namespace CodeGraph.Rules

open Std (ExtTreeMap LawfulEqCmp)

/-- A term has a value under a binding. -/
def Term.Is (s : Bindings) (v : Value) : Term → Prop
  | .var x => s[x]? = some v
  | .const c => v.isNamed c
  | .anonymous => True

/-- A binding extended so that a term has a value. -/
def unify (b : Bindings) (pair : Term × Value) : Option Bindings :=
  match pair.1 with
  | .var x =>
    match b[x]? with
    | some other => if other = pair.2 then some b else none
    | none => some (b.insert x pair.2)
  | .const c => if pair.2.isNamed c then some b else none
  | .anonymous => some b

/-- A binding extended so that every term of a list has its value. -/
def unifyAll (pairs : List (Term × Value)) (b : Bindings) : Option Bindings :=
  pairs.foldlM unify b

lemma unify_empty_var (x : String) (v : Value) : unify ∅ (.var x, v) = some (.single x v) := by
  simp [unify, Bindings.single]

lemma unify_const (b : Bindings) (c : String) (v : Value) :
    unify b (.const c, v) = if v.isNamed c then some b else none := rfl

lemma unify_anonymous (b : Bindings) (v : Value) : unify b (.anonymous, v) = some b := rfl

lemma unifyAll_nil (b : Bindings) : unifyAll [] b = some b := rfl

lemma unifyAll_cons (pair : Term × Value) (pairs : List (Term × Value)) (b : Bindings) :
    unifyAll (pair :: pairs) b = (unify b pair).bind (unifyAll pairs) := rfl

lemma unifyAll_append (pairs more : List (Term × Value)) (b : Bindings) :
    unifyAll (pairs ++ more) b = (unifyAll pairs b).bind (unifyAll more) :=
  List.foldlM_append

lemma unifyAll_singleton (pair : Term × Value) (b : Bindings) :
    unifyAll [pair] b = unify b pair := by
  simp [unifyAll]

lemma Term.Is.mono {b s : Bindings} {term : Term} {v : Value}
    (hextends : ∀ {x : String} {w : Value}, b[x]? = some w → s[x]? = some w)
    (h : term.Is b v) : term.Is s v := by
  cases term with
  | var x => exact hextends h
  | const c => exact h
  | anonymous => trivial

lemma Bindings.eq_iff {b s : Bindings} : b = s ↔
    (∀ x, x ∈ s ↔ x ∈ b) ∧ ∀ {x : String} {v : Value}, b[x]? = some v → s[x]? = some v := by
  constructor
  · rintro rfl
    exact ⟨fun _ => Iff.rfl, fun h => h⟩
  · rintro ⟨hmem, hvalues⟩
    refine ExtTreeMap.ext_getElem? fun x => ?_
    cases hx : b[x]? with
    | some v => exact (hvalues hx).symm
    | none => exact (Bindings.not_mem_iff.1 fun hs => Bindings.not_mem_iff.2 hx ((hmem x).1 hs)).symm

/-- What unifying a term with a value comes to. -/
lemma unify_eq_some {b s : Bindings} {term : Term} {v : Value} :
    unify b (term, v) = some s ↔ (∀ x, x ∈ s ↔ x ∈ b ∨ term = .var x) ∧
      (∀ {x : String} {w : Value}, b[x]? = some w → s[x]? = some w) ∧ term.Is s v := by
  cases term with
  | var y =>
    cases hy : b[y]? with
    | some w =>
      have hmem : y ∈ b := Bindings.mem_iff.2 ⟨w, hy⟩
      simp only [unify, hy]
      constructor
      · intro h
        split at h
        · next hw =>
          obtain rfl := Option.some.inj h
          obtain rfl := hw
          refine ⟨fun x => ⟨.inl, ?_⟩, fun h => h, hy⟩
          rintro (hx | hx)
          · exact hx
          · exact Term.var.inj hx ▸ hmem
        · simp at h
      · rintro ⟨hcovers, hextends, his⟩
        have hw : w = v := Option.some.inj ((hextends hy).symm.trans his)
        rw [if_pos hw]
        refine congrArg some (Bindings.eq_iff.2 ⟨fun x => ?_, hextends⟩)
        rw [hcovers]
        constructor
        · rintro (hx | hx)
          · exact hx
          · exact Term.var.inj hx ▸ hmem
        · exact .inl
    | none =>
      simp only [unify, hy, Option.some.injEq, Bindings.eq_iff, ExtTreeMap.mem_insert,
        ExtTreeMap.getElem?_insert, LawfulEqCmp.compare_eq_iff_eq, Term.var.injEq, Term.Is]
      constructor
      · rintro ⟨hcovers, hvalues⟩
        refine ⟨fun x => (hcovers x).trans or_comm, fun {x w} hx => hvalues ?_, hvalues (by simp)⟩
        have hne : y ≠ x := by
          rintro rfl
          simp [hy] at hx
        rwa [if_neg hne]
      · rintro ⟨hcovers, hextends, his⟩
        refine ⟨fun x => (hcovers x).trans or_comm, fun {x w} hx => ?_⟩
        split at hx
        · next hxy => rwa [← hxy, ← Option.some.inj hx]
        · exact hextends hx
  | const c =>
    simp only [unify, Term.Is, reduceCtorEq, or_false]
    by_cases hc : v.isNamed c
    · simp [hc, Bindings.eq_iff]
    · simp [hc]
  | anonymous => simp [unify, Term.Is, Bindings.eq_iff]

/-- Unifying succeeds below a binding under which the term has the value. -/
lemma exists_unify {b s : Bindings} {term : Term} {v : Value}
    (hextends : ∀ {x : String} {w : Value}, b[x]? = some w → s[x]? = some w)
    (his : term.Is s v) : ∃ b', unify b (term, v) = some b' ∧
      ∀ {x : String} {w : Value}, b'[x]? = some w → s[x]? = some w := by
  cases term with
  | var y =>
    cases hy : b[y]? with
    | some w =>
      have hw : w = v := Option.some.inj ((hextends hy).symm.trans his)
      exact ⟨b, by simp [unify, hy, hw], hextends⟩
    | none =>
      refine ⟨b.insert y v, by simp [unify, hy], fun {x w} hx => ?_⟩
      simp only [ExtTreeMap.getElem?_insert, LawfulEqCmp.compare_eq_iff_eq] at hx
      split at hx
      · next hxy => rwa [← hxy, ← Option.some.inj hx]
      · exact hextends hx
  | const c => exact ⟨b, if_pos his, hextends⟩
  | anonymous => exact ⟨b, rfl, hextends⟩

/-- What unifying a list of terms with their values comes to. -/
theorem unifyAll_eq_some_iff {pairs : List (Term × Value)} {b s : Bindings} :
    unifyAll pairs b = some s ↔ (∀ x, x ∈ s ↔ x ∈ b ∨ ∃ v, (.var x, v) ∈ pairs) ∧
      (∀ {x : String} {w : Value}, b[x]? = some w → s[x]? = some w) ∧
      ∀ term v, (term, v) ∈ pairs → term.Is s v := by
  induction pairs generalizing b with
  | nil =>
    simp only [unifyAll, List.foldlM_nil, Option.pure_def, Option.some.injEq, Bindings.eq_iff]
    simp
  | cons pair pairs ih =>
    obtain ⟨term, v⟩ := pair
    have hvars : ∀ {b' : Bindings} x, (x ∈ b' ↔ x ∈ b ∨ term = .var x) →
        ((x ∈ b' ∨ ∃ w, (.var x, w) ∈ pairs) ↔
          x ∈ b ∨ ∃ w, (.var x, w) ∈ (term, v) :: pairs) := by
      intro b' x hx
      simp only [hx, List.mem_cons, Prod.mk.injEq, exists_or, exists_eq_right, or_assoc,
        eq_comm (a := term)]
    rw [unifyAll_cons, Option.bind_eq_some_iff]
    constructor
    · rintro ⟨b', hb', hs⟩
      obtain ⟨hcovers', hextends', his'⟩ := unify_eq_some.1 hb'
      obtain ⟨hcovers, hextends, his⟩ := ih.1 hs
      refine ⟨fun x => (hcovers x).trans (hvars x (hcovers' x)),
        fun h => hextends (hextends' h), fun t w ht => ?_⟩
      obtain heq | ht := List.mem_cons.1 ht
      · obtain ⟨rfl, rfl⟩ := Prod.mk.inj heq
        exact his'.mono hextends
      · exact his t w ht
    · rintro ⟨hcovers, hextends, his⟩
      obtain ⟨b', hb', hextends'⟩ := exists_unify hextends (his term v List.mem_cons_self)
      obtain ⟨hcovers', -, -⟩ := unify_eq_some.1 hb'
      exact ⟨b', hb', ih.2 ⟨fun x => (hcovers x).trans (hvars x (hcovers' x)).symm, hextends',
        fun t w ht => his t w (List.mem_cons_of_mem _ ht)⟩⟩

/-- What unifying terms with their values comes to when nothing is bound before. -/
lemma unifyAll_empty_eq_some_iff {pairs : List (Term × Value)} {s : Bindings} :
    unifyAll pairs ∅ = some s ↔ (∀ x, x ∈ s ↔ ∃ v, (.var x, v) ∈ pairs) ∧
      ∀ term v, (term, v) ∈ pairs → term.Is s v := by
  rw [unifyAll_eq_some_iff]
  simp

end CodeGraph.Rules
