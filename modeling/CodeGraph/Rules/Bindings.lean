import CodeGraph.NodeId
import CodeGraph.Rules.Syntax
import Std.Data.ExtTreeMap

/-!
# Bindings

An answer binds variables to values.  A value is a node or a text; where a value is put
into an atom it becomes a constant with its text.
-/

namespace CodeGraph.Rules

/-- A value of a variable. -/
inductive Value where
  | node (id : NodeId)
  | text (value : String)
deriving DecidableEq

namespace Value

/-- The identifier that a value is or, as a numeral, stands for. -/
def asId? : Value → Option NodeId
  | node id => some id
  | text value => NodeId.numeral? value

/-- The text of a value. -/
def asText : Value → String
  | node id => id.text
  | text value => value

end Value

/-- The values of some variables. -/
abbrev Bindings := Std.ExtTreeMap String Value

namespace Bindings

/-- Whether two bindings give the same value to each variable that both bind. -/
def agrees (a b : Bindings) : Bool :=
  b.toList.all fun (name, value) =>
    match a[name]? with
    | some other => other == value
    | none => true

/-- Both bindings together, unless they disagree. -/
def extend? (a b : Bindings) : Option Bindings :=
  if a.agrees b then some (a ∪ b) else none

/-- The binding of one variable. -/
def single (name : String) (value : Value) : Bindings :=
  (∅ : Bindings).insert name value

end Bindings

/-- A term with the value of a bound variable in its place. -/
def Term.bind (bindings : Bindings) : Term → Term
  | .var name =>
    match bindings[name]? with
    | some value => .const value.asText
    | none => .var name
  | term => term

/-- An atom with the values of bound variables in their places. -/
def Atom.bind (bindings : Bindings) (atom : Atom) : Atom :=
  { atom with args := atom.args.map (Term.bind bindings) }

end CodeGraph.Rules
