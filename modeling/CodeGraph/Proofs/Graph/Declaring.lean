import Mathlib
import CodeGraph.Graph.Basic

/-!
# Declaring fields again

A declaration takes the place of the first field of its name, or comes behind all fields.  So what a
name stands for after several declarations is what was declared last (`fieldNamed?_foldl_declare`),
and declarations change nothing exactly if each one that is the last with its name is there already
(`foldl_declare_eq_self_iff`).
-/

namespace CodeGraph.Graph

/-- The first field of a name. -/
def fieldNamed? (fields : List FieldDecl) (name : String) : Option FieldDecl :=
  fields.find? (·.name == name)

variable {decls fields : List FieldDecl} {decl f : FieldDecl} {name : String}

lemma fieldNamed?_cons (f : FieldDecl) (fields : List FieldDecl) (name : String) :
    fieldNamed? (f :: fields) name = if f.name = name then some f else fieldNamed? fields name := by
  by_cases h : f.name = name <;> simp [fieldNamed?, h]

lemma name_eq_of_fieldNamed? (h : fieldNamed? fields name = some decl) : decl.name = name := by
  simpa using List.find?_some h

lemma fieldNamed?_append_singleton (fields : List FieldDecl) (decl : FieldDecl) (name : String) :
    fieldNamed? (fields ++ [decl]) name =
      (fieldNamed? fields name).or (if decl.name = name then some decl else none) := by
  rw [fieldNamed?, List.find?_append]
  exact congrArg _ (fieldNamed?_cons decl [] name)

/-- Fields of another name do not matter. -/
lemma fieldNamed?_filter_ne {other : String} (h : name ≠ other) :
    fieldNamed? (fields.filter (·.name ≠ other)) name = fieldNamed? fields name := by
  rw [fieldNamed?, fieldNamed?, List.find?_filter]
  congr 1
  funext f
  by_cases hf : f.name = name
  · simp [hf, h]
  · simp [hf]

lemma declare_cons (f : FieldDecl) (fields : List FieldDecl) (decl : FieldDecl) :
    declare (f :: fields) decl =
      if f.name = decl.name then decl :: fields else f :: declare fields decl := by
  by_cases h : f.name = decl.name
  · simp [declare, declare.replaceFirst, h]
  · rw [if_neg h]
    unfold declare
    rw [List.any_cons, beq_eq_false_iff_ne.2 h, Bool.false_or]
    split
    · rw [declare.replaceFirst, if_neg (by simpa using h)]
    · rfl

/-- Declaring a field changes what its name stands for, and no other name. -/
lemma fieldNamed?_declare (fields : List FieldDecl) (decl : FieldDecl) (name : String) :
    fieldNamed? (declare fields decl) name =
      if decl.name = name then some decl else fieldNamed? fields name := by
  induction fields with
  | nil => exact fieldNamed?_cons decl [] name
  | cons f fs ih =>
    rw [declare_cons]
    split
    · next hf =>
      rw [fieldNamed?_cons, fieldNamed?_cons, hf]
      split <;> rfl
    · next hf =>
      rw [fieldNamed?_cons, fieldNamed?_cons, ih]
      by_cases hname : f.name = name
      · have hne : decl.name ≠ name := fun h => hf (hname.trans h.symm)
        rw [if_pos hname, if_neg hne, if_pos hname]
      · rw [if_neg hname, if_neg hname]

/-- After several declarations a name stands for the field that was declared last. -/
lemma fieldNamed?_foldl_declare (decls fields : List FieldDecl) (name : String) :
    fieldNamed? (decls.foldl declare fields) name =
      (fieldNamed? decls.reverse name).or (fieldNamed? fields name) := by
  induction decls generalizing fields with
  | nil => rfl
  | cons decl decls ih =>
    rw [List.foldl_cons, ih, fieldNamed?_declare, List.reverse_cons, fieldNamed?_append_singleton,
      Option.or_assoc]
    split <;> rfl

/-- The first field is replaced by the last declaration with its name; the other fields see the
declarations with other names only. -/
lemma foldl_declare_cons (decls : List FieldDecl) (f : FieldDecl) (fields : List FieldDecl) :
    decls.foldl declare (f :: fields) = (fieldNamed? decls.reverse f.name).getD f ::
      (decls.filter (·.name ≠ f.name)).foldl declare fields := by
  induction decls generalizing f fields with
  | nil => rfl
  | cons decl decls ih =>
    rw [List.foldl_cons, declare_cons, List.reverse_cons, fieldNamed?_append_singleton]
    by_cases hname : f.name = decl.name
    · rw [if_pos hname, if_pos hname.symm, ih, ← hname,
        List.filter_cons_of_neg (by simpa using hname.symm)]
      cases fieldNamed? decls.reverse f.name <;> rfl
    · rw [if_neg hname, if_neg (Ne.symm hname), ih,
        List.filter_cons_of_pos (by simpa using Ne.symm hname), Option.or_none, List.foldl_cons]

/-- Declarations change nothing exactly if each one that is the last with its name is there
already. -/
lemma foldl_declare_eq_self_iff (decls fields : List FieldDecl) :
    decls.foldl declare fields = fields ↔
      ∀ decl, fieldNamed? decls.reverse decl.name = some decl →
        fieldNamed? fields decl.name = some decl := by
  constructor
  · intro hsame decl hlast
    rw [← hsame, fieldNamed?_foldl_declare, hlast, Option.some_or]
  · intro hthere
    induction fields generalizing decls with
    | nil =>
      rcases List.eq_nil_or_concat decls with rfl | ⟨before, decl, rfl⟩
      · rfl
      · have hlast : fieldNamed? (before.concat decl).reverse decl.name = some decl := by
          simp [fieldNamed?_cons]
        cases hthere decl hlast
    | cons f fs ih =>
      have hhead : (fieldNamed? decls.reverse f.name).getD f = f := by
        cases hlast : fieldNamed? decls.reverse f.name with
        | none => rfl
        | some decl =>
          have hname := name_eq_of_fieldNamed? hlast
          have hfound := hthere decl (hname ▸ hlast)
          rw [fieldNamed?_cons, if_pos hname.symm] at hfound
          exact (Option.some.inj hfound).symm
      have htail : (decls.filter (·.name ≠ f.name)).foldl declare fs = fs := by
        apply ih
        intro decl hlast
        have hother : decl.name ≠ f.name := by
          have hmem := List.mem_reverse.1 (List.mem_of_find?_eq_some hlast)
          exact of_decide_eq_true (List.mem_filter.1 hmem).2
        have hlast' : fieldNamed? decls.reverse decl.name = some decl := by
          rw [← List.filter_reverse, fieldNamed?_filter_ne hother] at hlast
          exact hlast
        have hfound := hthere decl hlast'
        rwa [fieldNamed?_cons, if_neg hother.symm] at hfound
      rw [foldl_declare_cons, hhead, htail]

end CodeGraph.Graph
