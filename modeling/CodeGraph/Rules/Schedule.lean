import CodeGraph.Rules.Syntax

/-!
# The order of literals

Some predicates need their inputs bound before they can be asked, and a negative literal
needs all its variables bound.  `schedule` puts a list of literals in an order in which
every literal comes after those that bind what it needs; among the literals that are
ready it takes the earliest.
-/

namespace CodeGraph.Rules

/-- The positions that must be bound before a predicate is asked. -/
def inputPositions (predicate : String) (arity : Nat) : List Nat :=
  if ["attr", "incoming", "path"].contains predicate then [0]
  else if ["neq", "starts_with", "not_starts_with", "string_contains"].contains predicate then
    List.range arity
  else []

/-- Whether a term has a value once some variables are bound. -/
def Term.isBound (bound : List String) : Term → Bool
  | .var name => bound.contains name
  | .const _ => true
  | .anonymous => false

/-- Whether a literal can be asked once some variables are bound. -/
def Literal.isReady (bound : List String) : Literal → Bool
  | .negative atom => atom.vars.all bound.contains
  | .positive atom => (inputPositions atom.predicate atom.arity).all fun i =>
      match atom.args[i]? with
      | some term => term.isBound bound
      | none => true

/-- The variables that are bound once a literal has been asked. -/
def Literal.binds (bound : List String) : Literal → List String
  | .negative _ => bound
  | .positive atom => bound ++ atom.vars

/-- Takes the first member of a list that has a property out of it. -/
def takeFirst {α : Type} (p : α → Bool) : List α → Option (α × List α)
  | [] => none
  | a :: as =>
    if p a then some (a, as)
    else (takeFirst p as).map fun (found, rest) => (found, a :: rest)

theorem length_takeFirst {α : Type} {p : α → Bool} {as : List α} {a : α} {rest : List α}
    (h : takeFirst p as = some (a, rest)) : as.length = rest.length + 1 := by
  induction as generalizing a rest with
  | nil => simp [takeFirst] at h
  | cons b bs ih =>
    simp only [takeFirst] at h
    split at h
    · simp only [Option.some.injEq, Prod.mk.injEq] at h
      simp [h.2]
    · obtain ⟨⟨found, left⟩, hfound, heq⟩ := Option.map_eq_some_iff.1 h
      simp only [Prod.mk.injEq] at heq
      rw [← heq.2, List.length_cons, List.length_cons, ih hfound]

/-- The literals in the order in which they are asked, or those left over that can never
be asked. -/
def scheduleFrom (bound : List String) (literals : List Literal) :
    Except (List Literal) (List Literal) :=
  match literals with
  | [] => .ok []
  | l :: ls =>
    match _h : takeFirst (·.isReady bound) (l :: ls) with
    | none => .error (l :: ls)
    | some (next, rest) => (scheduleFrom (next.binds bound) rest).map (next :: ·)
termination_by literals.length
decreasing_by
  have := length_takeFirst _h
  simp only [List.length_cons] at this ⊢
  omega

/-- The literals in the order in which they are asked, nothing being bound at first. -/
def schedule (literals : List Literal) : Except (List Literal) (List Literal) :=
  scheduleFrom [] literals

end CodeGraph.Rules
