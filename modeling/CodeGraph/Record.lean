import CodeGraph.NodeId
import Std.Data.ExtTreeMap
import Std.Data.ExtTreeSet

/-!
# Nodes and edges

A graph of code has nodes (functions, calls, routes, ...) and typed edges between them.
Both may carry a metadata text, which is read as JSON where its values matter.  An edge is
identified by its end points and its type; a missing type counts as the empty one.

Queries select nodes by attributes; `typeMatches` is the pattern language of types.
-/

namespace CodeGraph

/-- A node of the graph.  The semantic name is the one that a client gave to a node that
it did not number. -/
structure Node where
  id : NodeId
  type : Option String
  name : Option String
  file : Option String
  exported : Bool
  metadata : Option String
  semanticId : Option String
deriving DecidableEq

/-- An edge of the graph. -/
structure Edge where
  src : NodeId
  dst : NodeId
  type : Option String
  metadata : Option String
deriving DecidableEq

/-- What identifies an edge. -/
structure EdgeKey where
  src : NodeId
  dst : NodeId
  type : String
deriving DecidableEq

namespace EdgeKey

/-- The parts of a key, in the order in which keys are compared. -/
def parts (key : EdgeKey) : NodeId × NodeId × String :=
  (key.src, key.dst, key.type)

theorem parts_injective {a b : EdgeKey} (h : a.parts = b.parts) : a = b := by
  cases a; cases b; simp_all [parts]

/-- Keys are ordered by source, then by destination, then by type. -/
instance : Ord EdgeKey where
  compare a b :=
    (compare a.src b.src).then ((compare a.dst b.dst).then (compare a.type b.type))

instance : Std.TransOrd EdgeKey :=
  inferInstanceAs (Std.TransCmp (compareLex (compareOn EdgeKey.src)
    (compareLex (compareOn EdgeKey.dst) (compareOn EdgeKey.type))))

instance : Std.LawfulEqOrd EdgeKey where
  eq_of_compare {a b} h := by
    have h' : (compare a.src b.src).then
        ((compare a.dst b.dst).then (compare a.type b.type)) = .eq := h
    rw [Ordering.then_eq_eq, Ordering.then_eq_eq] at h'
    obtain ⟨hsrc, hdst, htype⟩ := h'
    apply parts_injective
    simp only [parts, Prod.mk.injEq]
    exact ⟨Std.LawfulEqOrd.eq_of_compare hsrc, Std.LawfulEqOrd.eq_of_compare hdst,
      Std.LawfulEqOrd.eq_of_compare htype⟩

end EdgeKey

/-- The key of an edge. -/
def Edge.key (edge : Edge) : EdgeKey where
  src := edge.src
  dst := edge.dst
  type := edge.type.getD ""

/-! ### Patterns and queries -/

/-- Whether a type fits a pattern: a pattern that ends in `*` asks for what stands before
the star as a beginning, any other pattern for the type itself. -/
def typeMatches (pattern type : String) : Bool :=
  if pattern.toList.getLast? = some '*' then
    pattern.toList.dropLast.isPrefixOf type.toList
  else pattern == type

/-- Which nodes to select: every attribute that is given must agree, and every filter
asks for a metadata value. -/
structure AttrQuery where
  type : Option String
  file : Option String
  exported : Option Bool
  name : Option String
  filters : List (String × String)
deriving DecidableEq

/-! ### Declared fields -/

/-- What kind of value a declared field holds. -/
inductive FieldKind where
  | text
  | truth
  | integer
  | identifier
deriving DecidableEq, Repr

/-- The kind that a client names; anything unknown is text. -/
def FieldKind.ofName : Option String → FieldKind
  | some "bool" => .truth
  | some "int" => .integer
  | some "id" => .identifier
  | _ => .text

/-- A metadata field that the graph keeps an index of, for nodes of any type or only for
those of the given types. -/
structure FieldDecl where
  name : String
  kind : FieldKind
  nodeTypes : Option (List String)
deriving DecidableEq

/-- Whether a declaration speaks about nodes of a type. -/
def FieldDecl.covers (decl : FieldDecl) (type : Option String) : Bool :=
  match decl.nodeTypes, type with
  | none, _ => true
  | some types, some type => types.contains type
  | some _, none => false

/-! ### Endpoints -/

/-- The types of nodes at which a program talks to the outside. -/
def endpointTypes : List String :=
  ["db:query", "http:request", "http:route", "http:endpoint", "graphql:query",
    "graphql:mutation", "graphql:subscription", "grpc:method", "websocket:handler"]

/-- Whether a node is an endpoint. -/
def Node.isEndpoint (node : Node) : Bool :=
  match node.type with
  | some type => endpointTypes.contains type
  | none => false

end CodeGraph
