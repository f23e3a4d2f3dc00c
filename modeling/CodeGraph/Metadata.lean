import CodeGraph.Json.Printer
import CodeGraph.Json.Reader
import CodeGraph.Record

/-!
# Metadata values

The metadata of a node is a JSON text.  Its values are addressed by name: a member of
that very name wins, otherwise the name is read as a path of members separated by points.
Only strings, numbers and truth values count as values.
-/

namespace CodeGraph

/-- The text of a value that is a string, a number or a truth value. -/
def Json.scalarText? : Json → Option String
  | .str s => some s
  | .int n => some (Json.text (.int n))
  | .float x => some (Json.text (.float x))
  | .bool b => some (Json.text (.bool b))
  | .null | .arr _ | .obj _ => none

/-- The value at the end of a path of members, none of which is empty. -/
def Json.follow? (value : Json) : (path : List String) → Option Json
  | [] => some value
  | part :: path =>
    if part.isEmpty then none else (value.member? part).bind fun next => next.follow? path

/-- The value that a metadata object gives to a name. -/
def metadataValue? (metadata : Json) (name : String) : Option String :=
  if name.isEmpty then none
  else
    match metadata.member? name with
    | some value => value.scalarText?
    | none =>
      if name.toList.contains '.' then
        (metadata.follow? (name.splitOn ".")).bind Json.scalarText?
      else none

/-- The metadata of a node, if it is a JSON text. -/
def Node.metadata? (node : Node) : Option Json :=
  node.metadata.bind Json.parse?

/-- The values that a node has for declared fields, with the names of the fields. -/
def Node.declaredValues (fields : List FieldDecl) (node : Node) : List (String × String) :=
  if fields.isEmpty then []
  else
    match node.metadata? with
    | none => []
    | some metadata =>
      (fields.filter (·.covers node.type)).filterMap fun decl =>
        (metadataValue? metadata decl.name).map (decl.name, ·)

/-- Whether the metadata of a node has all the values asked for. -/
def Node.hasValues (node : Node) (filters : List (String × String)) : Bool :=
  filters.isEmpty ||
    match node.metadata? with
    | none => false
    | some metadata => filters.all fun (name, value) => metadataValue? metadata name == some value

end CodeGraph
