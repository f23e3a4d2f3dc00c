/-!
# Rules

A rule derives its head from the literals of its body.  An atom has a predicate and
terms; a term is a variable, a constant, or `_`, which stands for anything.

`Rule.isSafe` says that every variable of the head and of a negative literal occurs in a
positive literal of the body.
-/

namespace CodeGraph.Rules

/-- A term of an atom. -/
inductive Term where
  | var (name : String)
  | const (value : String)
  | anonymous
deriving DecidableEq, Repr

/-- The name of a variable. -/
def Term.var? : Term → Option String
  | .var name => some name
  | _ => none

/-- The text of a term; constants stand in quotes. -/
def Term.text : Term → String
  | .var name => name
  | .const value => "\"" ++ value ++ "\""
  | .anonymous => "_"

/-- A predicate applied to terms. -/
structure Atom where
  predicate : String
  args : List Term
deriving DecidableEq, Repr

namespace Atom

/-- The number of terms. -/
def arity (atom : Atom) : Nat := atom.args.length

/-- The variables in the order in which they occur. -/
def vars (atom : Atom) : List String := atom.args.filterMap Term.var?

/-- The text of an atom. -/
def text (atom : Atom) : String :=
  atom.predicate ++ "(" ++ String.intercalate ", " (atom.args.map Term.text) ++ ")"

end Atom

/-- An atom that must have an answer, or one that must have none. -/
inductive Literal where
  | positive (atom : Atom)
  | negative (atom : Atom)
deriving DecidableEq, Repr

namespace Literal

/-- The atom of a literal. -/
def atom : Literal → Atom
  | positive atom | negative atom => atom

/-- Whether the atom must have no answer. -/
def isNegative : Literal → Bool
  | positive _ => false
  | negative _ => true

/-- The literal with its atom changed. -/
def map (f : Atom → Atom) : Literal → Literal
  | positive atom => positive (f atom)
  | negative atom => negative (f atom)

end Literal

/-- A head that holds whenever the body does. -/
structure Rule where
  head : Atom
  body : List Literal
deriving DecidableEq, Repr

/-- The variables of the positive literals of a body. -/
def positiveVariables (body : List Literal) : List String :=
  (body.filter (!·.isNegative)).flatMap (·.atom.vars)

/-- Whether the positive literals of the body bind every variable of the head and of the
negative literals. -/
def Rule.isSafe (rule : Rule) : Bool :=
  let bound := positiveVariables rule.body
  rule.head.vars.all bound.contains &&
    (rule.body.filter Literal.isNegative).all (·.atom.vars.all bound.contains)

end CodeGraph.Rules
