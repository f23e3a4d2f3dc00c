import CodeGraph.Graph.Query
import CodeGraph.Protocol.Wire
import CodeGraph.Rules.Bindings

/-!
# Between messages and graphs

In a graph nodes have numbers.  A node that a client names by anything but a canonical
decimal keeps that name, so that replies repeat exactly what the client wrote.
-/

namespace CodeGraph

/-- The node that a message describes. -/
def Node.ofWire (node : Wire.Node) : Node :=
  let key := node.semanticId.getD node.id
  { id := .parse key
    type := node.type
    name := node.name
    file := node.file
    exported := node.exported
    metadata := node.metadata
    semanticId := if NodeId.isNumeric key then none else some key }

/-- The name of a node in messages. -/
def Node.displayName (node : Node) : String :=
  node.semanticId.getD node.id.text

/-- A node as messages describe it. -/
def Node.toWire (node : Node) : Wire.Node where
  id := node.displayName
  semanticId := none
  type := node.type
  name := node.name
  file := node.file
  exported := node.exported
  metadata := node.metadata

/-- The edge that a message describes. -/
def Edge.ofWire (edge : Wire.Edge) : Edge where
  src := .parse edge.src
  dst := .parse edge.dst
  type := edge.type
  metadata := edge.metadata

/-- The value that a further key of a query asks for: `null` asks for nothing, a text for
itself, and any other value for its JSON text. -/
def Wire.filterValue? : Json → Option String
  | .null => none
  | .str s => some s
  | value => some value.text

/-- The query that a message describes. -/
def AttrQuery.ofWire (query : Wire.Query) : AttrQuery where
  type := query.type
  file := query.file
  exported := query.exported
  name := query.name
  filters := query.extra.toList.filterMap fun (key, value) =>
    (Wire.filterValue? value).map (key, ·)

/-- The declaration that a message describes. -/
def FieldDecl.ofWire (field : Wire.Field) : FieldDecl where
  name := field.name
  kind := .ofName field.type
  nodeTypes := field.nodeTypes

namespace Graph

/-- The name in messages of whatever has an identifier. -/
def displayName (g : Graph) (id : NodeId) : String :=
  ((g.node? id).bind Node.semanticId).getD id.text

/-- An edge as messages describe it. -/
def toWire (g : Graph) (edge : Edge) : Wire.Edge where
  src := g.displayName edge.src
  dst := g.displayName edge.dst
  type := edge.type
  metadata := edge.metadata

/-- The text of a value in messages. -/
def displayValue (g : Graph) : Rules.Value → String
  | .node id => g.displayName id
  | .text s => s

/-- Bindings as messages show them. -/
def displayBindings (g : Graph) (bindings : Rules.Bindings) : List (String × String) :=
  bindings.toList.map fun (name, value) => (name, g.displayValue value)

end Graph

end CodeGraph
